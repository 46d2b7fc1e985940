import GoTrace.Proofs.Grammar.Yields
import GoTrace.Proofs.Layout.Events

/-!
# Reading a layout

A layout is *read* if its rows, from first to last, are the tokens that a parser takes: each word is
the next token, each construct starts with the next token, and it stops where its last row does. A
construct never begins with a comma or a closing round bracket. What is read is said of
states of the parser, so a reading knows the comments of its tokens as well.

**Calls.** A call keeps its arguments and commas in one list and the dots in a row of their own, so
the order of its rows is that of the tokens only if the dots are behind the last argument. A call is
therefore read through other rows, those of its arguments one by one (`LaidArgument.rows`), and
`ReadsRows.call` says how the rows of the layout come from them. Only between these rows may three
dots be stray. A reading without calls is one in which every row stands for the next tokens.
-/

namespace GoTrace

/-- A place of the text, and the state in which a parser goes on there. -/
structure Point where
  /-- The place up to which the text is read. -/
  place : Offset
  /-- The state of the parser. -/
  state : ParseState

/-- A construct may begin with the next token, which starts at `place`. -/
def Opens (place : Offset) (st : ParseState) : Prop :=
  ∃ t ts, st.tokens = t :: ts ∧ t.span.start = place ∧ t.kind.opens

/-- An argument with its layout, and the places of the dots and of the comma behind it. -/
structure LaidArgument where
  layout : Layout
  dots? : Option Offset
  comma? : Option Offset

/-- An argument, the dots and the comma in the order of the text. -/
def LaidArgument.rows (a : LaidArgument) : List Row :=
  [.child (some a.layout), .token "..." a.dots?, .token "," a.comma?]

/-- Some rows are read from one point to another; `calls` says whether calls are read through other
rows, and `stray` whether dots may be stray between these rows. -/
inductive ReadsRows : (calls stray : Bool) → List Row → Point → Point → Prop
  | done {calls stray : Bool} {p : Point} : ReadsRows calls stray [] p p
  /-- A row that stands for nothing. -/
  | silent {calls stray : Bool} {row : Row} {rows : List Row} {p q : Point} (h : row.isSilent)
      (rest : ReadsRows calls stray rows p q) : ReadsRows calls stray (row :: rows) p q
  /-- A row that stands for a token. -/
  | word {calls stray : Bool} {row : Row} {rows : List Row} {p q : Point} {st : ParseState}
      {kind : TokenKind} {place : Offset} {text : String} (hrow : row.word? = some (place, text))
      (h : Marks kind place p.state st) (hkind : kind.isWritten) (htext : kind.spelling = text)
      (hdots : kind = .operator .ellipsis → stray = true ∨ strayDots (written p.state.tokens) = false)
      (rest : ReadsRows calls stray rows ⟨place.advance text.utf8ByteSize, st⟩ q) :
      ReadsRows calls stray (row :: rows) p q
  /-- A construct. -/
  | child {calls stray : Bool} {kind : NodeKind} {span : Span} {inner rows : List Row} {p q : Point}
      {st : ParseState} (hopens : Opens span.start p.state)
      (hinner : ReadsRows calls false inner ⟨span.start, p.state⟩ ⟨span.stop, st⟩)
      (rest : ReadsRows calls stray rows ⟨span.stop, st⟩ q) :
      ReadsRows calls stray (.child (some (.node kind span inner)) :: rows) p q
  /-- The end of a run. -/
  | listDone {calls stray : Bool} {rows : List Row} {p q : Point}
      (rest : ReadsRows calls stray rows p q) : ReadsRows calls stray (.list [] [] :: rows) p q
  /-- A construct of a run. -/
  | listItem {calls stray : Bool} {item : Layout} {items : List Layout} {separators : List Offset}
      {rows : List Row} {p q : Point}
      (rest : ReadsRows calls stray (.child (some item) :: .list items separators :: rows) p q) :
      ReadsRows calls stray (.list (item :: items) separators :: rows) p q
  /-- A comma of a run. -/
  | listComma {calls stray : Bool} {items : List Layout} {separator : Offset}
      {separators : List Offset} {rows : List Row} {p q : Point}
      (rest : ReadsRows calls stray
        (.token "," (some separator) :: .list items separators :: rows) p q) :
      ReadsRows calls stray (.list items (separator :: separators) :: rows) p q
  /-- The end of a line in a run. -/
  | listSkip {calls stray : Bool} {items : List Layout} {separators : List Offset} {rows : List Row}
      {p q : Point} {t : Token} {st : ParseState} (h : Takes p.state t st)
      (hkind : t.kind = .semicolon true)
      (rest : ReadsRows calls stray (.list items separators :: rows) ⟨p.place, st⟩ q) :
      ReadsRows calls stray (.list items separators :: rows) p q
  /-- The arguments of a call, and the bracket behind them. -/
  | call {stray : Bool} {args : List LaidArgument} {items : List Layout} {commas : List Offset}
      {dots? comma? : Option Offset} {rparen : Offset} {hasDots : Bool} {rows : List Row}
      {p q r : Point} {st : ParseState}
      (hargs : ReadsRows true true (args.flatMap LaidArgument.rows) p q)
      (hlast : dotsLast (written p.state.tokens) → ∀ a ∈ args.dropLast, a.dots? = none)
      (hitems : items = args.map (·.layout))
      (hdots : dots? = (args.filterMap (·.dots?)).getLast?) (hhas : hasDots = dots?.isSome)
      (hcommas : commas = commasBeforeDots (args.filterMap (·.comma?)) dots?)
      (hcomma : comma? = commaBehindDots (args.filterMap (·.comma?)) dots?)
      (hclose : Marks (.operator .rparen) rparen q.state st)
      (rest : ReadsRows true stray rows ⟨rparen.advance 1, st⟩ r) :
      ReadsRows true stray
        (.list items commas :: .checkpoint "AfterArgs" hasDots :: .token "..." dots? ::
          .checkpoint "AfterEllipsis" hasDots :: .token "," comma? :: .token ")" (some rparen) ::
          rows) p r

/-- A construct is read from one state to another. -/
def Layout.Reads (l : Layout) (st st' : ParseState) : Prop :=
  Opens l.start st ∧
    ∃ rows, l = .node l.kind l.span rows ∧ ReadsRows true false rows ⟨l.start, st⟩ ⟨l.stop, st'⟩

/-- A construct that may be missing is read, if it is there. -/
def ReadsOpt (l? : Option Layout) (st st' : ParseState) : Prop :=
  match l? with
  | none => st = st'
  | some l => l.Reads st st'

/-! ## Places -/

@[simp]
theorem stopOfLast_cons (l : Layout) (ls : List Layout) (place : Offset) :
    stopOfLast (l :: ls) place = stopOfLast ls l.stop := by
  cases ls <;> simp [stopOfLast, List.getLast?_cons]

/-- The end of the last of some constructs does not depend on what it is if there are none. -/
theorem stopOfLast_eq {ls : List Layout} (h : ls ≠ []) (place place' : Offset) :
    stopOfLast ls place = stopOfLast ls place' := by
  cases ls with
  | nil => exact absurd rfl h
  | cons l ls => rw [stopOfLast_cons, stopOfLast_cons]

@[simp]
theorem Offset.advance_zero (place : Offset) : place.advance 0 = place := by
  ext
  exact Nat.min_eq_left place.le_max

/-! ## Tokens that are taken -/

/-- A token that begins a construct opens it. -/
theorem Marks.opens {kind : TokenKind} {place : Offset} {st st' : ParseState}
    (h : Marks kind place st st') (hkind : kind.opens) : Opens place st := by
  obtain ⟨t, ht, rfl, rfl⟩ := h
  exact ⟨t, st'.tokens, ht.tokens, rfl, hkind⟩

/-- The token that is taken is the next one. -/
theorem Marks.nextKind? {kind : TokenKind} {place : Offset} {st st' : ParseState}
    (h : Marks kind place st st') : st.nextKind? = some kind := by
  obtain ⟨t, ht, rfl, -⟩ := h
  rw [ParseState.nextKind?, ht.tokens, List.head?_cons, Option.map_some]

/-- A construct begins with a token that may begin one. -/
theorem Opens.nextKind? {place : Offset} {st : ParseState} (h : Opens place st) :
    ∃ kind, st.nextKind? = some kind ∧ kind.opens := by
  obtain ⟨t, ts, hts, -, hkind⟩ := h
  exact ⟨t.kind, by rw [ParseState.nextKind?, hts, List.head?_cons, Option.map_some], hkind⟩

/-- Dots with something else than a comma behind them are not stray. -/
theorem Marks.not_strayDots {next : TokenKind} {place : Offset} {st st' : ParseState}
    (h : Marks (.operator .ellipsis) place st st') (hnext : st'.nextKind? = some next)
    (hwritten : next.isWritten) (hcomma : next ≠ .operator .comma) :
    strayDots (written st.tokens) = false := by
  obtain ⟨t, ht, hkind, -⟩ := h
  rw [ParseState.nextKind?, Option.map_eq_some_iff] at hnext
  obtain ⟨u, hu, rfl⟩ := hnext
  obtain ⟨ts, hts⟩ := List.head?_eq_some_iff.1 hu
  rw [ht.tokens, written_cons (by rw [hkind]; rfl), hts, written_cons hwritten]
  rcases written ts with _ | ⟨v, vs⟩
  · rfl
  · simp [strayDots, hcomma]

/-! ## What a reading takes -/

/-- From `st` to `st'` the tokens `ts` are taken, and their comments are put aside. -/
structure Consumes (st : ParseState) (ts : List Token) (st' : ParseState) : Prop where
  tokens : st.tokens = ts ++ st'.tokens
  comments : st'.comments.toList = st.comments.toList ++ ts.flatMap (·.comments)
  noError : ∀ t ∈ ts, ∀ message, t.kind ≠ .error message

/-- Nothing is taken. -/
theorem Consumes.nil {st : ParseState} : Consumes st [] st :=
  ⟨rfl, by simp, by simp⟩

/-- Tokens are taken one list after the other. -/
theorem Consumes.append {st st' st'' : ParseState} {ts us : List Token} (h : Consumes st ts st')
    (h' : Consumes st' us st'') : Consumes st (ts ++ us) st'' where
  tokens := by rw [h.tokens, h'.tokens, List.append_assoc]
  comments := by rw [h'.comments, h.comments, List.flatMap_append, List.append_assoc]
  noError t ht := (List.mem_append.1 ht).elim (h.noError t) (h'.noError t)

/-- A token is taken. -/
theorem Takes.consumes {st st' : ParseState} {t : Token} (h : Takes st t st') :
    Consumes st [t] st' where
  tokens := h.tokens
  comments := by simp [h.comments]
  noError u hu := by
    obtain rfl := List.mem_singleton.1 hu
    exact h.noError

/-- The comments of tokens that are taken are put aside. -/
theorem Passes.consumes {st st' : ParseState} {ts : List Token} (h : Passes st ts st') :
    Consumes st ts st' := by
  induction h with
  | nil => exact .nil
  | cons h _ ih => exact h.consumes.append ih

/-- A token of a kind is taken. -/
theorem Marks.consumes {kind : TokenKind} {place : Offset} {st st' : ParseState}
    (h : Marks kind place st st') : ∃ ts, Consumes st ts st' := by
  obtain ⟨t, ht, -, -⟩ := h
  exact ⟨[t], ht.consumes⟩

/-- A written token of a kind is taken, which is not the end of the text. -/
theorem Marks.passes {kind : TokenKind} {place : Offset} {st st' : ParseState}
    (h : Marks kind place st st') (hkind : kind.isWritten) :
    ∃ ts, Passes st ts st' ∧ ∀ t ∈ ts, t.kind ≠ .eof := by
  obtain ⟨t, ht, rfl, -⟩ := h
  refine ⟨[t], .cons ht .nil, List.forall_mem_singleton.2 fun heof => ?_⟩
  rw [heof] at hkind
  cases hkind

/-- A reading takes tokens off the front, and never the end of the text. -/
theorem ReadsRows.passes {calls stray : Bool} {rows : List Row} {p q : Point}
    (h : ReadsRows calls stray rows p q) :
    ∃ ts, Passes p.state ts q.state ∧ ∀ t ∈ ts, t.kind ≠ .eof := by
  induction h with
  | done => exact ⟨[], .nil, by simp⟩
  | silent _ _ ih | listDone _ ih | listItem _ ih | listComma _ ih => exact ih
  | word _ h hkind _ _ _ ih =>
    obtain ⟨ts, hts, hts'⟩ := h.passes hkind
    obtain ⟨us, hus, hus'⟩ := ih
    exact ⟨_, hts.append hus, List.forall_mem_append.2 ⟨hts', hus'⟩⟩
  | child _ _ _ ihinner ih =>
    obtain ⟨ts, hts, hts'⟩ := ihinner
    obtain ⟨us, hus, hus'⟩ := ih
    exact ⟨_, hts.append hus, List.forall_mem_append.2 ⟨hts', hus'⟩⟩
  | listSkip h hkind _ ih =>
    obtain ⟨us, hus, hus'⟩ := ih
    refine ⟨_, .cons h hus, List.forall_mem_cons.2 ⟨?_, hus'⟩⟩
    rw [hkind]
    exact TokenKind.noConfusion
  | call _ _ _ _ _ _ _ hclose _ ihargs ih =>
    obtain ⟨ts, hts, hts'⟩ := ihargs
    obtain ⟨us, hus, hus'⟩ := hclose.passes rfl
    obtain ⟨vs, hvs, hvs'⟩ := ih
    exact ⟨_, hts.append (hus.append hvs),
      List.forall_mem_append.2 ⟨hts', List.forall_mem_append.2 ⟨hus', hvs'⟩⟩⟩

/-- A reading takes tokens off the front. -/
theorem ReadsRows.consumes {calls stray : Bool} {rows : List Row} {p q : Point}
    (h : ReadsRows calls stray rows p q) : ∃ ts, Consumes p.state ts q.state := by
  obtain ⟨ts, hts, -⟩ := h.passes
  exact ⟨ts, hts.consumes⟩

/-- A construct that is read takes tokens off the front. -/
theorem Layout.Reads.consumes {l : Layout} {st st' : ParseState} (h : l.Reads st st') :
    ∃ ts, Consumes st ts st' := by
  obtain ⟨-, rows, -, hrows⟩ := h
  exact hrows.consumes

/-- Tokens without stray dots have none once some are taken. -/
theorem Consumes.dotsLast {st st' : ParseState} {ts : List Token} (h : Consumes st ts st')
    (hlast : dotsLast (written st.tokens)) : GoTrace.dotsLast (written st'.tokens) := by
  rw [h.tokens, written, List.filter_append] at hlast
  exact dotsLast_of_append hlast

namespace ReadsRows

variable {calls stray : Bool} {rows : List Row} {p q : Point} {st : ParseState} {kind : TokenKind}
  {place : Offset} {text : String}

/-- A checkpoint reads nothing. -/
theorem check {label : String} {present : Bool} (rest : ReadsRows calls stray rows p q) :
    ReadsRows calls stray (.checkpoint label present :: rows) p q :=
  .silent rfl rest

/-- A row with a plain token reads that token. -/
theorem token (h : Marks kind place p.state st) (hplain : kind.isPlain)
    (htext : kind.spelling = text)
    (rest : ReadsRows calls stray rows ⟨place.advance text.utf8ByteSize, st⟩ q) :
    ReadsRows calls stray (.token text (some place) :: rows) p q :=
  .word rfl h (TokenKind.isWritten_of_isPlain hplain) htext
    (fun hdots => absurd hdots (TokenKind.ne_ellipsis_of_isPlain hplain)) rest

/-- A row with a plain token whose text the construct carries reads that token. -/
theorem lexeme (h : Marks kind place p.state st) (hplain : kind.isPlain)
    (htext : kind.spelling = text)
    (rest : ReadsRows calls stray rows ⟨place.advance text.utf8ByteSize, st⟩ q) :
    ReadsRows calls stray (.lexeme (some (place, text)) :: rows) p q :=
  .word rfl h (TokenKind.isWritten_of_isPlain hplain) htext
    (fun hdots => absurd hdots (TokenKind.ne_ellipsis_of_isPlain hplain)) rest

/-- A row with a plain token that may be missing reads that token, if it is there. -/
theorem tokenOpt {place? : Option Offset} (h : MarksOpt kind place? p.state st)
    (hplain : kind.isPlain) (htext : kind.spelling = text)
    (rest : ReadsRows calls stray rows
      ⟨(place?.map (·.advance text.utf8ByteSize)).getD p.place, st⟩ q) :
    ReadsRows calls stray (.token text place? :: rows) p q := by
  cases place? with
  | none =>
    obtain rfl : p.state = st := h
    exact .silent rfl rest
  | some place => exact .token h hplain htext rest

/-- A row with a construct reads that construct. -/
theorem item {l : Layout} (h : l.Reads p.state st) (rest : ReadsRows true stray rows ⟨l.stop, st⟩ q) :
    ReadsRows true stray (.child (some l) :: rows) p q := by
  obtain ⟨hopens, inner, heq, hinner⟩ := h
  rw [heq]
  exact .child hopens hinner rest

/-- A row with a construct that may be missing reads that construct, if it is there. -/
theorem itemOpt {l? : Option Layout} (h : ReadsOpt l? p.state st)
    (rest : ReadsRows true stray rows ⟨stopOf l? p.place, st⟩ q) :
    ReadsRows true stray (.child l? :: rows) p q := by
  cases l? with
  | none =>
    obtain rfl : p.state = st := h
    exact .silent rfl rest
  | some l => exact .item h rest

/-- The end of a line in a run is skipped. -/
theorem skip {items : List Layout} {separators : List Offset} (h : Skips p.state st)
    (rest : ReadsRows true stray (.list items separators :: rows) ⟨p.place, st⟩ q) :
    ReadsRows true stray (.list items separators :: rows) p q := by
  rcases h with rfl | ⟨t, ht, hkind⟩
  · exact rest
  · exact .listSkip ht hkind rest

end ReadsRows

namespace Layout.Reads

variable {l : Layout} {kind : NodeKind} {span : Span} {rows : List Row} {st st' : ParseState}

/-- A construct is read if it begins with the next token and its rows are read. -/
theorem intro (hopens : Opens span.start st)
    (hrows : ReadsRows true false rows ⟨span.start, st⟩ ⟨span.stop, st'⟩) :
    (Layout.node kind span rows).Reads st st' :=
  ⟨hopens, rows, rfl, hrows⟩

/-- A construct that is a single token is read with it. -/
theorem ofLexeme {tokenKind : TokenKind} {place : Offset} {text : String}
    (h : Marks tokenKind place st st') (hplain : tokenKind.isPlain) (hopens : tokenKind.opens)
    (htext : tokenKind.spelling = text) :
    (Layout.node kind (.ofLength place text.utf8ByteSize) [.lexeme (some (place, text))]).Reads st
      st' :=
  .intro (h.opens hopens) (.lexeme h hplain htext .done)

/-- A construct that only wraps another one is read with it, and the other way round. -/
theorem wrap_iff : (Layout.node kind l.span [.child (some l)]).Reads st st' ↔ l.Reads st st' := by
  constructor
  · rintro ⟨-, rows, heq, hrows⟩
    obtain rfl : [Row.child (some l)] = rows := by injection heq
    cases hrows with
    | silent h _ => cases h
    | word hrow => cases hrow
    | child hopens hinner rest =>
      cases rest
      exact .intro hopens hinner
  · intro h
    exact .intro h.1 (.item h .done)

end Layout.Reads

end GoTrace
