import GoTrace.Proofs.Grammar.Runs

/-!
# What the rules for types read

Each rule reads the layout of the tree that it returns (`Parser.Lays`). The rules one level deeper
are supposed to do so already, which is what `Nested.Sound` says of them; the last module on the
grammar closes the circle by induction on the level.
-/

namespace GoTrace

/-- The rules that go one level deeper read the layouts of what they return. The rule for a literal
goes on behind its type. -/
structure Nested.Sound (rules : Nested) : Prop where
  type : rules.type.Lays Expr.layout
  expr : rules.expr.Lays Expr.layout
  operand : rules.operand.Lays Expr.layout
  literal : ∀ {type? ctx st₀ st x st'}, (rules.literal type?).Yields ctx st x st' →
    ReadsOpt (Expr.layout? type?) st₀ st → x.layout.Reads st₀ st'
  block : rules.block.Lays Block.layout
  ifStmt : rules.ifStmt.Lays Stmt.layout
  stmt : rules.stmt.Lays Stmt.layout
  stmts : ∀ {ctx st xs st'}, rules.stmts.Yields ctx st xs st' →
    ReadsLines (xs.map Stmt.layout) st st'

/-! ## Names and literals -/

namespace Parser

/-- A name is read. -/
theorem lays_expectIdent : expectIdent.Lays Ident.layout := by
  intro ctx st x st' h
  exact .ofLexeme (marks_of_expectIdent h) rfl rfl rfl

/-- A literal is read. -/
theorem lays_expectLiteral : expectLiteral.Lays BasicLit.layout := by
  intro ctx st x st' h
  exact .ofLexeme (marks_of_expectLiteral h) rfl rfl rfl

end Parser

namespace Grammar

open GoTrace.Parser

variable {rules : Nested} (sound : rules.Sound)

/-! ## Simple types -/

theorem lays_typeName : typeName.Lays Expr.layout := by
  intro ctx st x st' h
  obtain ⟨name, _, hname, h⟩ := yields_bind.1 h
  obtain ⟨period?, _, hperiod, h⟩ := yields_bind.1 h
  replace hname := lays_expectIdent hname
  replace hperiod := marks_of_takeOp? hperiod
  cases period? with
  | none =>
    obtain ⟨rfl, rfl⟩ := yields_pure.1 h
    obtain rfl := hperiod
    exact hname
  | some period =>
    obtain ⟨selected, _, hselected, h⟩ := yields_bind.1 h
    obtain ⟨rfl, rfl⟩ := yields_pure.1 h
    replace hselected := lays_expectIdent hselected
    rw [Expr.layout]
    exact .intro hname.1 (.item hname (.check (.token hperiod rfl rfl (.item hselected .done))))

/-! ## Arrays, maps, channels and pointers -/

/-- Three dots in front of a type, or alone, are read. -/
theorem reads_ellipsis {dots : Offset} {element? : Option Expr} {st st₁ st' : ParseState}
    {kind : TokenKind} (hdots : Marks (.operator .ellipsis) dots st st₁)
    (hnext : st₁.nextKind? = some kind) (hkind : kind.isWritten) (hcomma : kind ≠ .operator .comma)
    (helement : ReadsOpt (Expr.layout? element?) st₁ st') :
    (Expr.ellipsis dots element?).layout.Reads st st' := by
  rw [Expr.layout]
  exact .intro (hdots.opens rfl)
    (.word rfl hdots rfl rfl (fun _ => .inr (hdots.not_strayDots hnext hkind hcomma))
      (.check (.itemOpt helement .done)))

include sound in
theorem readsOpt_arrayLength? {ctx : ParseContext} {st st' : ParseState} {length? : Option Expr}
    (h : (arrayLength? rules).Yields ctx st length? st')
    (hrbrack : st'.nextKind? = some (.operator .rbrack)) :
    ReadsOpt (Expr.layout? length?) st st' := by
  have h := (yields_peek (peeks_nextIsOp _)).1 h
  split at h
  · obtain ⟨rfl, rfl⟩ := yields_pure.1 h
    exact rfl
  · obtain ⟨dots?, _, hdots, h⟩ := yields_bind.1 h
    replace hdots := marks_of_takeOp? hdots
    cases dots? with
    | none =>
      obtain ⟨expr, _, hexpr, h⟩ := yields_bind.1 h
      obtain ⟨rfl, rfl⟩ := yields_pure.1 h
      obtain rfl := hdots
      exact sound.expr hexpr
    | some dots =>
      obtain ⟨rfl, rfl⟩ := yields_pure.1 h
      exact reads_ellipsis hdots hrbrack rfl (by decide) rfl

include sound in
theorem lays_arrayType : (arrayType rules).Lays Expr.layout := by
  intro ctx st x st' h
  obtain ⟨lbrack, _, hlbrack, h⟩ := yields_bind.1 h
  obtain ⟨length?, _, hlength, h⟩ := yields_bind.1 h
  obtain ⟨rbrack, _, hrbrack, h⟩ := yields_bind.1 h
  obtain ⟨element, _, helement, h⟩ := yields_bind.1 h
  obtain ⟨rfl, rfl⟩ := yields_pure.1 h
  replace hlbrack := marks_of_expectOp hlbrack
  replace hrbrack := marks_of_expectOp hrbrack
  replace hlength := readsOpt_arrayLength? sound hlength hrbrack.nextKind?
  rw [Expr.layout]
  refine .intro (hlbrack.opens rfl) (.token hlbrack rfl rfl (.check (.itemOpt hlength ?_)))
  exact .check (.token hrbrack rfl rfl (.item (sound.type helement) .done))

include sound in
theorem lays_mapType : (mapType rules).Lays Expr.layout := by
  intro ctx st x st' h
  obtain ⟨map, _, hmap, h⟩ := yields_bind.1 h
  obtain ⟨lbrack, _, hlbrack, h⟩ := yields_bind.1 h
  obtain ⟨key, _, hkey, h⟩ := yields_bind.1 h
  obtain ⟨rbrack, _, hrbrack, h⟩ := yields_bind.1 h
  obtain ⟨value, _, hvalue, h⟩ := yields_bind.1 h
  obtain ⟨rfl, rfl⟩ := yields_pure.1 h
  replace hmap := marks_of_expectKeyword hmap
  replace hlbrack := marks_of_expectOp hlbrack
  replace hrbrack := marks_of_expectOp hrbrack
  rw [Expr.layout]
  refine .intro (hmap.opens rfl) (.token hmap rfl rfl (.check (.token hlbrack rfl rfl ?_)))
  refine .item (sound.type hkey) (.token hrbrack rfl rfl (.check ?_))
  exact .item (sound.type hvalue) .done

include sound in
theorem lays_chanType : (chanType rules).Lays Expr.layout := by
  intro ctx st x st' h
  obtain ⟨recv?, _, hrecv, h⟩ := yields_bind.1 h
  replace hrecv := marks_of_takeOp? hrecv
  cases recv? with
  | some arrow =>
    obtain ⟨chan, _, hchan, h⟩ := yields_bind.1 h
    obtain ⟨value, _, hvalue, h⟩ := yields_bind.1 h
    obtain ⟨rfl, rfl⟩ := yields_pure.1 h
    rw [Expr.layout]
    refine .intro (Marks.opens hrecv rfl) (.token hrecv rfl rfl ?_)
    refine .token (marks_of_expectKeyword hchan) rfl rfl (.check (.silent rfl (.check ?_)))
    exact .item (sound.type hvalue) .done
  | none =>
    obtain rfl := hrecv
    obtain ⟨chan, _, hchan, h⟩ := yields_bind.1 h
    obtain ⟨send?, _, hsend, h⟩ := yields_bind.1 h
    replace hchan := marks_of_expectKeyword hchan
    replace hsend := marks_of_takeOp? hsend
    cases send? with
    | some arrow =>
      obtain ⟨value, _, hvalue, h⟩ := yields_bind.1 h
      obtain ⟨rfl, rfl⟩ := yields_pure.1 h
      rw [Expr.layout]
      refine .intro (hchan.opens rfl) (.silent rfl (.token hchan rfl rfl (.check ?_)))
      exact .token hsend rfl rfl (.check (.item (sound.type hvalue) .done))
    | none =>
      obtain rfl := hsend
      obtain ⟨value, _, hvalue, h⟩ := yields_bind.1 h
      obtain ⟨rfl, rfl⟩ := yields_pure.1 h
      rw [Expr.layout]
      refine .intro (hchan.opens rfl) (.silent rfl (.token hchan rfl rfl (.check ?_)))
      exact .silent rfl (.check (.item (sound.type hvalue) .done))

include sound in
theorem reads_parenType {ctx : ParseContext} {st st' : ParseState} {x : Expr}
    (h : (parenType rules).Yields ctx st x st')
    (hkind : st.nextKind? = some (.operator .lparen)) : x.layout.Reads st st' := by
  obtain ⟨lparen, _, hlparen, h⟩ := yields_bind.1 h
  obtain ⟨inner, _, hinner, h⟩ := yields_bind.1 h
  obtain ⟨rparen, _, hrparen, h⟩ := yields_bind.1 h
  obtain ⟨rfl, rfl⟩ := yields_pure.1 h
  replace hlparen := marks_of_takePlace hlparen hkind
  replace hrparen := marks_of_expectOp hrparen
  rw [Expr.layout]
  refine .intro (hlparen.opens rfl) (.token hlparen rfl rfl (.check ?_))
  exact .item (sound.type hinner) (.check (.token hrparen rfl rfl .done))

include sound in
theorem reads_pointerType {ctx : ParseContext} {st st' : ParseState} {x : Expr}
    (h : (pointerType rules).Yields ctx st x st') (hkind : st.nextKind? = some (.operator .mul)) :
    x.layout.Reads st st' := by
  obtain ⟨star, _, hstar, h⟩ := yields_bind.1 h
  obtain ⟨operand, _, hoperand, h⟩ := yields_bind.1 h
  obtain ⟨rfl, rfl⟩ := yields_pure.1 h
  replace hstar := marks_of_takePlace hstar hkind
  rw [Expr.layout]
  exact .intro (hstar.opens rfl)
    (.token hstar rfl rfl (.check (.item (sound.type hoperand) .done)))

/-! ## Fields -/

/-- A field is read if its names, its type and its tag are. -/
theorem reads_field {names : List Ident} {commas : List Offset} {type : Expr}
    {tag? : Option BasicLit} {st st₁ st₂ st' : ParseState}
    (hopens : Opens (startOfFirst (names.map Ident.layout) type.layout.start) st)
    (hnames : ∀ {rows place q}, (∀ place, ReadsRows true false rows ⟨place, st₁⟩ q) →
      ReadsRows true false (.list (names.map Ident.layout) commas :: rows) ⟨place, st⟩ q)
    (htype : type.layout.Reads st₁ st₂) (htag : ReadsOpt (tag?.map BasicLit.layout) st₂ st') :
    (Field.layout ⟨names, commas, type, tag?⟩).Reads st st' := by
  rw [Field.layout]
  exact .intro hopens
    (hnames fun place => .check (.item htype (.check (.itemOpt htag .done))))

/-- A field without names is read with its type and its tag. -/
theorem reads_unnamedField {type : Expr} {tag? : Option BasicLit} {st st₁ st' : ParseState}
    (htype : type.layout.Reads st st₁) (htag : ReadsOpt (tag?.map BasicLit.layout) st₁ st') :
    (Field.layout ⟨[], [], type, tag?⟩).Reads st st' :=
  reads_field htype.1 (fun rest => .listDone (rest _)) htype htag

/-- Fields between braces are read if each of them is. -/
theorem lays_bracedFields {field : Parser Field} (hfield : field.Lays Field.layout) :
    (bracedFields field).Lays FieldList.layout := by
  intro ctx st x st' h
  obtain ⟨opening, _, hopening, h⟩ := yields_bind.1 h
  obtain ⟨fields, _, hfields, h⟩ := yields_bind.1 h
  obtain ⟨closing, _, hclosing, h⟩ := yields_bind.1 h
  obtain ⟨rfl, rfl⟩ := yields_pure.1 h
  replace hopening := marks_of_expectOp hopening
  replace hclosing := marks_of_expectOp hclosing
  have hlines := readsLines_of_many (peeks_nextIsOp .rbrace) (fun _ => readsLine hfield) hfields
  rw [FieldList.layout, Field.layouts_eq_map]
  refine .intro (hopening.opens rfl) (.lexeme hopening rfl rfl (.check (hlines.list ?_)))
  exact .lexeme hclosing rfl rfl .done

theorem readsOpt_tag? {ctx : ParseContext} {st st' : ParseState} {x? : Option BasicLit}
    (h : tag?.Yields ctx st x? st') : ReadsOpt (x?.map BasicLit.layout) st st' := by
  obtain ⟨isString, _, hpeek, h⟩ := yields_bind.1 h
  obtain ⟨-, rfl⟩ := (yields_of_peeks peeks_nextIsString).1 hpeek
  split at h
  · obtain ⟨literal, _, hliteral, h⟩ := yields_bind.1 h
    obtain ⟨rfl, rfl⟩ := yields_pure.1 h
    exact lays_expectLiteral hliteral
  · obtain ⟨rfl, rfl⟩ := yields_pure.1 h
    exact rfl

include sound in
theorem lays_structField : (structField rules).Lays Field.layout := by
  intro ctx st x st' h
  obtain ⟨isIdent, _, hpeek, h⟩ := yields_bind.1 h
  obtain ⟨-, rfl⟩ := (yields_of_peeks peeks_nextIsIdent).1 hpeek
  have h := (yields_peek peeks_peekSecondKind?).1 h
  -- the type and the tag are read in the same way behind names as without them
  have hrest : ∀ {names commas st₁}, Yields (do
        let type ← rules.type
        return Field.mk names commas type (← tag?)) ctx st₁ x st' →
      ∃ type x? st₂, type.layout.Reads st₁ st₂ ∧ ReadsOpt (Option.map BasicLit.layout x?) st₂ st' ∧
        x = ⟨names, commas, type, x?⟩ := by
    intro names commas st₁ h
    obtain ⟨type, st₂, htype, h⟩ := yields_bind.1 h
    obtain ⟨x?, _, htag, h⟩ := yields_bind.1 h
    obtain ⟨rfl, rfl⟩ := yields_pure.1 h
    exact ⟨type, x?, st₂, sound.type htype, readsOpt_tag? htag, rfl⟩
  dsimp only at h
  split at h
  · obtain ⟨⟨names, commas⟩, _, hnames, h⟩ := yields_bind.1 h
    obtain ⟨type, x?, st₂, htype, htag, rfl⟩ := hrest h
    have hrun := readsRun_of_commaSeparated lays_expectIdent hnames
    exact reads_field hrun.opens (fun rest => hrun.list (rest _)) htype htag
  · obtain ⟨_, _, hnames, h⟩ := yields_bind.1 h
    obtain ⟨rfl, rfl⟩ := yields_pure.1 hnames
    obtain ⟨type, x?, st₂, htype, htag, rfl⟩ := hrest h
    exact reads_unnamedField htype htag

include sound in
theorem lays_structType : (structType rules).Lays Expr.layout := by
  intro ctx st x st' h
  obtain ⟨struct, _, hstruct, h⟩ := yields_bind.1 h
  obtain ⟨fields, _, hfields, h⟩ := yields_bind.1 h
  obtain ⟨rfl, rfl⟩ := yields_pure.1 h
  replace hstruct := marks_of_expectKeyword hstruct
  replace hfields := lays_bracedFields (lays_structField sound) hfields
  rw [Expr.layout]
  exact .intro (hstruct.opens rfl) (.token hstruct rfl rfl (.check (.item hfields .done)))

/-! ## Parameters -/

include sound in
theorem lays_parameterType : (parameterType rules).Lays Expr.layout := by
  intro ctx st x st' h
  obtain ⟨dots?, _, hdots, h⟩ := yields_bind.1 h
  replace hdots := marks_of_takeOp? hdots
  cases dots? with
  | none =>
    obtain rfl := hdots
    exact sound.type h
  | some dots =>
    obtain ⟨type, _, htype, h⟩ := yields_bind.1 h
    obtain ⟨rfl, rfl⟩ := yields_pure.1 h
    replace htype := sound.type htype
    obtain ⟨kind, hnext, hkind⟩ := htype.1.nextKind?
    refine reads_ellipsis hdots hnext (TokenKind.isWritten_of_opens hkind) ?_ htype
    rintro rfl
    cases hkind

/-- The entries of a parameter list are read: names in front of types, and commas behind. -/
inductive ReadsEntries : List ParamEntry → ParseState → ParseState → Prop
  | nil {st : ParseState} : ReadsEntries [] st st
  | cons {entry : ParamEntry} {entries : List ParamEntry} {st st₁ st₂ st₃ st' : ParseState}
      (hname : ReadsOpt (entry.name?.map Ident.layout) st st₁)
      (htype : entry.type.layout.Reads st₁ st₂)
      (hcomma : MarksOpt (.operator .comma) entry.comma? st₂ st₃)
      (rest : ReadsEntries entries st₃ st') : ReadsEntries (entry :: entries) st st'

include sound in
theorem reads_parameter {ctx : ParseContext} {st st' : ParseState} {entry : ParamEntry}
    {last : Bool} (h : (parameter rules).Yields ctx st (entry, last) st') :
    ∃ st₁ st₂, ReadsOpt (entry.name?.map Ident.layout) st st₁ ∧
      entry.type.layout.Reads st₁ st₂ ∧ MarksOpt (.operator .comma) entry.comma? st₂ st' := by
  obtain ⟨isIdent, _, hpeek, h⟩ := yields_bind.1 h
  obtain ⟨-, rfl⟩ := (yields_of_peeks peeks_nextIsIdent).1 hpeek
  have h := (yields_peek peeks_peekSecondKind?).1 h
  dsimp only at h
  split at h
  · obtain ⟨name?, st₁, hname, h⟩ := yields_bind.1 h
    obtain ⟨type, st₂, htype, h⟩ := yields_bind.1 h
    obtain ⟨comma?, _, hcomma, h⟩ := yields_bind.1 h
    obtain ⟨heq, rfl⟩ := yields_pure.1 h
    obtain ⟨rfl, -⟩ := Prod.mk.inj heq
    obtain ⟨name, hident, rfl⟩ := yields_map.1 hname
    exact ⟨st₁, st₂, lays_expectIdent hident, lays_parameterType sound htype,
      marks_of_takeOp? hcomma⟩
  · obtain ⟨name?, st₁, hname, h⟩ := yields_bind.1 h
    obtain ⟨type, st₂, htype, h⟩ := yields_bind.1 h
    obtain ⟨comma?, _, hcomma, h⟩ := yields_bind.1 h
    obtain ⟨heq, rfl⟩ := yields_pure.1 h
    obtain ⟨rfl, -⟩ := Prod.mk.inj heq
    obtain ⟨rfl, rfl⟩ := yields_pure.1 hname
    exact ⟨st, st₂, rfl, lays_parameterType sound htype, marks_of_takeOp? hcomma⟩

include sound in
theorem readsEntries_of_collect {ctx : ParseContext} {st st' : ParseState}
    {entries : List ParamEntry}
    (h : (collect (nextIsOp .rparen) (parameter rules)).Yields ctx st entries st') :
    ReadsEntries entries st st' := by
  replace h := collected_of_collect h
  induction h with
  | done h =>
    obtain ⟨-, rfl⟩ := (yields_of_peeks (peeks_nextIsOp _)).1 h
    exact .nil
  | last hmore h =>
    obtain ⟨-, rfl⟩ := (yields_of_peeks (peeks_nextIsOp _)).1 hmore
    obtain ⟨st₁, st₂, hname, htype, hcomma⟩ := reads_parameter sound h
    exact .cons hname htype hcomma .nil
  | next hmore h _ ih =>
    obtain ⟨-, rfl⟩ := (yields_of_peeks (peeks_nextIsOp _)).1 hmore
    obtain ⟨st₁, st₂, hname, htype, hcomma⟩ := reads_parameter sound h
    exact .cons hname htype hcomma ih

/-- Entries without names are read as fields of their own. -/
private theorem readsItems_of_unnamed {entries : List ParamEntry} {st st' : ParseState}
    (h : ReadsEntries entries st st') (hnone : entries.all (·.name?.isNone)) :
    ReadsItems (entries.map fun e => (e.unnamed.layout, e.comma?)) st st' := by
  induction h with
  | nil => exact .nil
  | @cons entry entries st st₁ st₂ st₃ st' hname htype hcomma _ ih =>
    rw [List.all_cons, Bool.and_eq_true, Option.isNone_iff_eq_none] at hnone
    rw [hnone.1] at hname
    obtain rfl := hname
    exact .cons (reads_unnamedField htype rfl) hcomma (ih hnone.2)

/-- Entries of which some have names are read as the fields that they are grouped to. The names that
wait for their type have been read already, with the commas behind them. -/
private theorem readsItems_of_groupNamed {entries : List ParamEntry} {names : List Ident}
    {commas separators : List Offset} {fields : List Field}
    {waiting : List (Layout × Option Offset)} {st₀ st st' : ParseState}
    (h : ParamEntry.groupNamed entries names commas = .ok (fields, separators))
    (hentries : ReadsEntries entries st st') (hwaiting : ReadsItems waiting st₀ st)
    (hnames : names.map Ident.layout = waiting.map Prod.fst)
    (hcommas : commas = waiting.filterMap Prod.snd) :
    ∃ items, ReadsItems items st₀ st' ∧ fields.map Field.layout = items.map Prod.fst ∧
      separators = items.filterMap Prod.snd := by
  induction hentries generalizing names commas separators fields waiting st₀ with
  | nil =>
    rw [ParamEntry.groupNamed] at h
    split at h
    · cases h
    · rename_i hlast
      obtain ⟨rfl, rfl⟩ := Prod.mk.inj (Except.ok.inj h)
      obtain rfl := List.getLast?_eq_none_iff.1 hlast
      obtain rfl := List.map_eq_nil_iff.1 hnames.symm
      exact ⟨[], hwaiting, rfl, rfl⟩
  | @cons entry entries st st₁ st₂ st₃ st' hname htype hcomma _ ih =>
    obtain ⟨name?, type, comma?⟩ := entry
    cases name? with
    | some name =>
      rw [ParamEntry.groupNamed] at h
      rcases hrest : ParamEntry.groupNamed entries [] [] with e | ⟨fields', separators'⟩
      · rw [hrest] at h
        cases h
      rw [hrest] at h
      obtain ⟨rfl, rfl⟩ := Prod.mk.inj (Except.ok.inj h)
      obtain ⟨items, hitems, hfields, hseparators⟩ := ih hrest .nil rfl rfl
      have hlone : ReadsItems [(name.layout, none)] st st₁ := .cons hname rfl .nil
      have hall := hwaiting.append hlone
      have hmap : (names ++ [name]).map Ident.layout =
          (waiting ++ [(name.layout, none)]).map Prod.fst := by simp [hnames]
      have hfield : (Field.layout ⟨names ++ [name], commas, type, none⟩).Reads st₀ st₂ := by
        refine reads_field ?_ (fun rest => ?_) htype rfl
        · rw [hmap]
          exact hall.opens (by simp)
        · rw [hmap, hcommas]
          have hfilter : waiting.filterMap Prod.snd =
              (waiting ++ [(name.layout, none)]).filterMap Prod.snd := by simp
          rw [hfilter]
          exact hall.list rest
      refine ⟨(Field.layout ⟨names ++ [name], commas, type, none⟩, comma?) :: items,
        .cons hfield hcomma hitems, ?_, ?_⟩
      · rw [List.map_cons, List.map_cons, hfields]
      · cases comma? <;> simp [hseparators]
    | none =>
      obtain rfl := hname
      cases type with
      | ident name =>
        rw [ParamEntry.groupNamed] at h
        refine ih h (hwaiting.append (.cons htype hcomma .nil)) ?_ ?_
        · simp [hnames, Expr.layout]
        · cases comma? <;> simp [hcommas]
      | _ => cases h

/-- The entries of a parameter list are read as the fields that they stand for. -/
theorem readsItems_of_group {entries : List ParamEntry} {fields : List Field}
    {separators : List Offset} {st st' : ParseState}
    (h : ParamEntry.group entries = .ok (fields, separators))
    (hentries : ReadsEntries entries st st') :
    ∃ items, ReadsItems items st st' ∧ fields.map Field.layout = items.map Prod.fst ∧
      separators = items.filterMap Prod.snd := by
  rw [ParamEntry.group] at h
  split at h
  · rename_i hnone
    obtain ⟨rfl, rfl⟩ := Prod.mk.inj (Except.ok.inj h)
    refine ⟨_, readsItems_of_unnamed hentries hnone, ?_, ?_⟩
    · simp
    · rw [List.filterMap_map]
      rfl
  · exact readsItems_of_groupNamed h hentries .nil rfl rfl

include sound in
theorem lays_parameters : (parameters rules).Lays FieldList.layout := by
  intro ctx st x st' h
  obtain ⟨opening, _, hopening, h⟩ := yields_bind.1 h
  obtain ⟨entries, _, hentries, h⟩ := yields_bind.1 h
  obtain ⟨closing, _, hclosing, h⟩ := yields_bind.1 h
  obtain ⟨⟨fields, separators⟩, _, hgroup, h⟩ := yields_bind.1 h
  obtain ⟨rfl, rfl⟩ := yields_pure.1 h
  obtain ⟨hok, rfl⟩ := yields_fromExcept hgroup
  replace hopening := marks_of_expectOp hopening
  replace hclosing := marks_of_expectOp hclosing
  obtain ⟨items, hitems, hfields, hseparators⟩ :=
    readsItems_of_group hok (readsEntries_of_collect sound hentries)
  rw [FieldList.layout, Field.layouts_eq_map, hfields, hseparators]
  refine .intro (hopening.opens rfl) (.lexeme hopening rfl rfl (.check (hitems.list ?_)))
  intro place
  exact .lexeme hclosing rfl rfl .done

/-! ## Signatures -/

include sound in
theorem readsOpt_results? {ctx : ParseContext} {st st' : ParseState} {results? : Option FieldList}
    (h : (Grammar.results? rules).Yields ctx st results? st') :
    ReadsOpt (FieldList.layout? results?) st st' := by
  have h := (yields_peek (peeks_nextIsOp _)).1 h
  split at h
  · obtain ⟨params, _, hparams, h⟩ := yields_bind.1 h
    obtain ⟨rfl, rfl⟩ := yields_pure.1 h
    exact lays_parameters sound hparams
  · have h := (yields_peek peeks_peekKind?).1 h
    split at h
    · obtain ⟨type, _, htype, h⟩ := yields_bind.1 h
      obtain ⟨rfl, rfl⟩ := yields_pure.1 h
      have hfield : (Field.layout ⟨[], [], type, none⟩).Reads _ _ :=
        reads_unnamedField (sound.type htype) rfl
      rw [FieldList.layout?, FieldList.layout]
      refine .intro hfield.1 (.silent rfl (.check (.listItem ?_)))
      exact .item hfield (.listDone (.silent rfl .done))
    · obtain ⟨rfl, rfl⟩ := yields_pure.1 h
      exact rfl

include sound in
/-- A signature is read from its parameters on; the keyword has been read before. -/
theorem reads_signature {ctx : ParseContext} {st st' : ParseState} {func? : Option Offset}
    {x : FuncType} (h : (signature rules func?).Yields ctx st x st') :
    x.func? = func? ∧ ∃ st₁, x.params.layout.Reads st st₁ ∧
      ReadsOpt (FieldList.layout? x.results?) st₁ st' := by
  obtain ⟨params, st₁, hparams, h⟩ := yields_bind.1 h
  obtain ⟨results?, _, hresults, h⟩ := yields_bind.1 h
  obtain ⟨rfl, rfl⟩ := yields_pure.1 h
  exact ⟨rfl, st₁, lays_parameters sound hparams, readsOpt_results? sound hresults⟩

include sound in
/-- A signature without a keyword is read. -/
theorem lays_signature : (signature rules none).Lays FuncType.layout := by
  intro ctx st x st' h
  obtain ⟨hfunc, st₁, hparams, hresults⟩ := reads_signature sound h
  obtain ⟨_, params, results?⟩ := x
  obtain rfl := hfunc
  rw [FuncType.layout]
  refine .intro hparams.1 (.silent rfl (.check ?_))
  exact .item hparams (.check (.itemOpt hresults .done))

include sound in
/-- A signature is read with the keyword in front of it. -/
theorem reads_signature_func {ctx : ParseContext} {st st₁ st' : ParseState} {func : Offset}
    {x : FuncType} (hfunc : Marks (.keyword .funcKw) func st st₁)
    (h : (signature rules (some func)).Yields ctx st₁ x st') : x.layout.Reads st st' := by
  obtain ⟨hfunc', st₂, hparams, hresults⟩ := reads_signature sound h
  obtain ⟨_, params, results?⟩ := x
  obtain rfl := hfunc'
  rw [FuncType.layout]
  refine .intro (hfunc.opens rfl) (.token hfunc rfl rfl (.check ?_))
  exact .item hparams (.check (.itemOpt hresults .done))

/-! ## Interfaces and functions -/

include sound in
theorem lays_interfaceElem : (interfaceElem rules).Lays Field.layout := by
  intro ctx st x st' h
  obtain ⟨isIdent, _, hpeek, h⟩ := yields_bind.1 h
  obtain ⟨-, rfl⟩ := (yields_of_peeks peeks_nextIsIdent).1 hpeek
  have h := (yields_peek peeks_peekSecondKind?).1 h
  split at h
  · obtain ⟨name, _, hname, h⟩ := yields_bind.1 h
    obtain ⟨type, _, htype, h⟩ := yields_bind.1 h
    obtain ⟨rfl, rfl⟩ := yields_pure.1 h
    replace hname := lays_expectIdent hname
    exact reads_field hname.1 (fun rest => .listItem (.item hname (.listDone (rest _))))
      (lays_signature sound htype) rfl
  · obtain ⟨type, _, htype, h⟩ := yields_bind.1 h
    obtain ⟨rfl, rfl⟩ := yields_pure.1 h
    exact reads_unnamedField (sound.type htype) rfl

include sound in
theorem lays_interfaceType : (interfaceType rules).Lays Expr.layout := by
  intro ctx st x st' h
  obtain ⟨interface, _, hinterface, h⟩ := yields_bind.1 h
  obtain ⟨methods, _, hmethods, h⟩ := yields_bind.1 h
  obtain ⟨rfl, rfl⟩ := yields_pure.1 h
  replace hinterface := marks_of_expectKeyword hinterface
  replace hmethods := lays_bracedFields (lays_interfaceElem sound) hmethods
  rw [Expr.layout]
  exact .intro (hinterface.opens rfl)
    (.token hinterface rfl rfl (.check (.item hmethods .done)))

include sound in
theorem reads_funcType {ctx : ParseContext} {st st' : ParseState} {x : Expr}
    (h : (funcType rules).Yields ctx st x st') (hkind : st.nextKind? = some (.keyword .funcKw)) :
    x.layout.Reads st st' := by
  obtain ⟨func, _, hfunc, h⟩ := yields_bind.1 h
  obtain ⟨type, _, htype, h⟩ := yields_bind.1 h
  obtain ⟨rfl, rfl⟩ := yields_pure.1 h
  exact reads_signature_func sound (marks_of_takePlace hfunc hkind) htype

/-! ## All types -/

include sound in
/-- **Every type is read.** -/
theorem lays_type : (type rules).Lays Expr.layout := by
  intro ctx st x st' h
  have h := (yields_peek peeks_peekKind?).1 h
  split at h
  · exact lays_typeName h
  · exact reads_pointerType sound h ‹_›
  · exact lays_arrayType sound h
  · exact lays_chanType sound h
  · exact reads_parenType sound h ‹_›
  · exact lays_mapType sound h
  · exact lays_structType sound h
  · exact reads_funcType sound h ‹_›
  · exact lays_chanType sound h
  · exact lays_interfaceType sound h
  · exact absurd h not_yields_unexpected

end Grammar

end GoTrace
