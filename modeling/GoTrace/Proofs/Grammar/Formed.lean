import GoTrace.Proofs.Grammar.Levels
import GoTrace.Proofs.Grammar.OpenEnds

/-!
# The grammar builds well-formed trees

Each rule returns a whole tree if the rules one level deeper do. What has to be shown of a rule is
that it puts the optional parts of its node together as `Node.Formed` asks, mostly because it reads
them together; the parts come from other rules. Signatures without keyword are returned by one rule,
whose result is only put into declared functions and methods.
-/

namespace GoTrace

/-- The rules one level deeper return whole trees. -/
structure Nested.Forming (rules : Nested) : Prop where
  type : rules.type.Ensures Expr.Whole
  expr : rules.expr.Ensures Expr.Whole
  operand : rules.operand.Ensures Expr.Whole
  literal : ∀ {type?}, (∀ x ∈ type?, x.Whole) → (rules.literal type?).Ensures Expr.Whole
  block : rules.block.Ensures fun block => (Stmt.block block).Whole
  ifStmt : rules.ifStmt.Ensures fun stmt => stmt.Whole ∧ stmt.isElse
  stmt : rules.stmt.Ensures Stmt.Whole
  stmts : rules.stmts.Ensures fun stmts => ∀ stmt ∈ stmts, stmt.Whole
  shutting : rules.Shutting

namespace Grammar

open GoTrace.Parser

variable {rules : Nested} (forming : rules.Forming)

/-! ## Types -/

theorem whole_typeName : typeName.Ensures Expr.Whole := by
  refine ensures_bind fun name => ensures_bind fun period? => ?_
  cases period? with
  | none => exact ensures_pure Expr.whole_ident
  | some period =>
    exact ensures_bind fun _ =>
      ensures_pure (Expr.whole_of_parts rfl trivial (by simp [Expr.parts]))

include forming

theorem whole_arrayLength? :
    (arrayLength? rules).Ensures fun length? => ∀ x ∈ length?, x.Whole := by
  refine ensures_bind fun _ => .ite (ensures_pure nofun) (ensures_bind fun dots? => ?_)
  cases dots? with
  | none => exact forming.expr.withLiterals.bind fun x hx => ensures_pure (by simpa using hx)
  | some dots =>
    have hdots : (Expr.ellipsis dots none).Whole := Expr.whole_of_parts rfl trivial nofun
    exact ensures_pure (by simpa using hdots)

theorem whole_arrayType : (arrayType rules).Ensures Expr.Whole := by
  refine ensures_bind fun lbrack => (whole_arrayLength? forming).bind fun length? hlength => ?_
  refine ensures_bind fun rbrack => forming.type.bind fun element helement => ensures_pure ?_
  refine Expr.whole_of_parts rfl trivial ?_
  simpa [Expr.parts, or_imp, forall_and] using ⟨hlength, helement⟩

theorem whole_mapType : (mapType rules).Ensures Expr.Whole := by
  refine ensures_bind fun map => ensures_bind fun lbrack => forming.type.bind fun key hkey => ?_
  refine ensures_bind fun rbrack => forming.type.bind fun value hvalue => ensures_pure ?_
  exact Expr.whole_of_parts rfl trivial (by simpa [Expr.parts] using ⟨hkey, hvalue⟩)

/-- Of a channel type, only the arrow has to be where the direction says that there is one. -/
theorem whole_chanType : (chanType rules).Ensures Expr.Whole := by
  have hvalue : ∀ chan arrow? dir, (arrow?.isSome ↔ dir ≠ .both) →
      (return Expr.chanType chan arrow? dir (← rules.type)).Ensures Expr.Whole := by
    intro chan arrow? dir harrow
    refine forming.type.bind fun value hvalue => ensures_pure ?_
    exact Expr.whole_of_parts rfl harrow (by simpa [Expr.parts] using hvalue)
  refine ensures_bind fun recv? => ?_
  cases recv? with
  | some arrow => exact ensures_bind fun chan => hvalue chan (some arrow) .recv (by simp)
  | none =>
    refine ensures_bind fun chan => ensures_bind fun send? => ?_
    cases send? with
    | some arrow => exact hvalue chan (some arrow) .send (by simp)
    | none => exact hvalue chan none .both (by simp)

theorem whole_parenType : (parenType rules).Ensures Expr.Whole := by
  refine ensures_bind fun lparen => forming.type.bind fun inner hinner => ?_
  refine ensures_bind fun rparen => ensures_pure (Expr.whole_of_parts rfl trivial ?_)
  simpa [Expr.parts] using hinner

theorem whole_pointerType : (pointerType rules).Ensures Expr.Whole := by
  refine ensures_bind fun star => forming.type.bind fun x hx => ensures_pure ?_
  exact Expr.whole_of_parts rfl trivial (by simpa [Expr.parts] using hx)

omit forming in
/-- Fields between braces have both braces. -/
theorem formed_bracedFields {field : Parser Field} {P : Field → Prop} (hfield : field.Ensures P) :
    (bracedFields field).Ensures fun l => l.Formed ∧ ∀ field ∈ l.fields, P field := by
  refine ensures_bind fun opening => Ensures.bind (ensures_many (hfield.bind fun field hfield =>
    ensures_bind fun _ => ensures_pure hfield)) fun fields hfields => ?_
  exact ensures_bind fun closing => ensures_pure ⟨⟨rfl, nofun⟩, hfields⟩

theorem whole_structField : (structField rules).Ensures Field.Whole := by
  refine ensures_bind fun _ => ensures_bind fun _ =>
    ensures_ite_bind ensures_true ensures_true ?_
  refine fun (names, commas) _ => forming.type.bind fun type htype => ensures_bind fun tag? => ?_
  exact ensures_pure (Field.whole_of_type htype)

theorem whole_structType : (structType rules).Ensures Expr.Whole := by
  refine ensures_bind fun struct => ?_
  refine (formed_bracedFields (whole_structField forming)).bind fun l ⟨hl, hfields⟩ => ?_
  refine ensures_pure (Expr.whole_of_parts rfl trivial ?_)
  simpa [Expr.parts] using FieldList.whole_of_fields hl hfields

theorem whole_parameterType : (parameterType rules).Ensures Expr.Whole := by
  refine ensures_bind fun dots? => ?_
  cases dots? with
  | none => exact forming.type
  | some dots =>
    refine forming.type.bind fun x hx => ensures_pure (Expr.whole_of_parts rfl trivial ?_)
    simpa [Expr.parts] using hx

theorem whole_parameter : (parameter rules).Ensures (·.1.type.Whole) := by
  refine ensures_bind fun _ => ensures_bind fun _ =>
    ensures_ite_bind ensures_true ensures_true ?_
  refine fun name? _ => (whole_parameterType forming).bind fun type htype => ?_
  exact ensures_bind fun comma? => ensures_pure htype

theorem whole_parameters : (parameters rules).Ensures FieldList.Whole := by
  have hcollect : (collect (nextIsOp .rparen) (parameter rules)).Ensures
      fun entries => ∀ entry ∈ entries, entry.type.Whole :=
    ensures_collect (whole_parameter forming)
  refine ensures_bind fun opening => hcollect.bind fun entries hentries => ?_
  refine ensures_bind fun closing =>
    Ensures.bind (ensures_fromExcept fun _ hgroup => hgroup) fun (fields, separators) hgroup => ?_
  refine ensures_pure (FieldList.whole_of_fields ⟨rfl, nofun⟩ fun field hfield => ?_)
  obtain ⟨entry, hentry, htype⟩ := ParamEntry.type_of_group hgroup field hfield
  refine Field.whole_of_type ?_
  rw [← htype]
  exact hentries entry hentry

theorem whole_results? : (results? rules).Ensures fun results? => ∀ l ∈ results?, l.Whole := by
  refine ensures_bind fun _ => .ite ?_ (ensures_bind fun _ => .ite ?_ (ensures_pure nofun))
  · exact (whole_parameters forming).bind fun l hl => ensures_pure (by simpa using hl)
  · refine forming.type.bind fun type htype => ensures_pure ?_
    -- a single result goes without brackets
    have hformed : FieldList.Formed ⟨.paren, none, [⟨[], [], type, none⟩], [], none⟩ :=
      ⟨rfl, fun _ => ⟨_, rfl, rfl⟩⟩
    simpa using FieldList.whole_of_fields hformed (by simpa using Field.whole_of_type htype)

/-- The parts of a signature, with or without the keyword. -/
theorem whole_signature (func? : Option Offset) : (signature rules func?).Ensures fun type =>
    type.func? = func? ∧ type.params.Whole ∧ ∀ l ∈ type.results?, l.Whole :=
  (whole_parameters forming).bind fun _ hparams => (whole_results? forming).bind fun _ hresults =>
    ensures_pure ⟨rfl, hparams, hresults⟩

/-- A signature with the keyword. -/
theorem whole_keyedSignature (func : Offset) :
    (signature rules (some func)).Ensures fun type => (Expr.funcType type).Whole := by
  refine (whole_signature forming (some func)).mono fun type ⟨hfunc, hparams, hresults⟩ => ?_
  have hordinary : (Expr.funcType type).isOrdinary := by rw [Expr.isOrdinary, hfunc]; rfl
  obtain ⟨func?, params, results?⟩ := type
  refine Expr.whole_of_parts hordinary trivial ?_
  simpa [Expr.parts] using ⟨hparams, hresults⟩

theorem member_interfaceElem :
    (interfaceElem rules).Ensures fun field => field.IsMember ∧ (Node.field field).AllFormed := by
  refine ensures_bind fun _ => ensures_bind fun _ => .ite ?_ ?_
  · refine ensures_bind fun name => (whole_signature forming none).bind
      fun type ⟨hfunc, hparams, hresults⟩ => ensures_pure ⟨.inl ⟨rfl, ?_⟩, ?_⟩
    · simp [Expr.isBareSignature, hfunc]
    · exact Field.allFormed_of_type (FuncType.allFormed_of_parts hparams hresults)
  · refine forming.type.bind fun type htype => ensures_pure ⟨.inr ⟨rfl, htype.1⟩, ?_⟩
    exact Field.allFormed_of_type htype.2

theorem whole_interfaceType : (interfaceType rules).Ensures Expr.Whole := by
  refine ensures_bind fun interface => ?_
  refine (formed_bracedFields (member_interfaceElem forming)).bind fun l ⟨hl, hfields⟩ => ?_
  exact ensures_pure (Expr.whole_interfaceType hl hfields)

theorem whole_funcType : (funcType rules).Ensures Expr.Whole :=
  ensures_bind fun func => (whole_keyedSignature forming func).bind fun _ htype =>
    ensures_pure htype

theorem whole_type : (type rules).Ensures Expr.Whole := by
  refine ensures_bind fun kind? => ?_
  split
  · exact whole_typeName
  · exact whole_pointerType forming
  · exact whole_arrayType forming
  · exact whole_chanType forming
  · exact whole_parenType forming
  · exact whole_mapType forming
  · exact whole_structType forming
  · exact whole_funcType forming
  · exact whole_chanType forming
  · exact whole_interfaceType forming
  · exact ensures_unexpected

/-! ## Expressions -/

theorem whole_exprList : (exprList rules).Ensures fun xs => ∀ x ∈ xs.1, x.Whole :=
  ensures_commaSeparated forming.expr

theorem whole_elementPart : (elementPart rules).Ensures Expr.Whole :=
  ensures_bind fun _ => .ite (forming.literal nofun) forming.expr

theorem whole_element : (element rules).Ensures Expr.Whole := by
  refine (whole_elementPart forming).bind fun key hkey => ensures_bind fun colon? => ?_
  cases colon? with
  | none => exact ensures_pure hkey
  | some colon =>
    refine (whole_elementPart forming).bind fun value hvalue => ensures_pure ?_
    exact Expr.whole_of_parts rfl trivial (by simpa [Expr.parts] using ⟨hkey, hvalue⟩)

theorem whole_literal {type? : Option Expr} (htype : ∀ x ∈ type?, x.Whole) :
    (literal rules type?).Ensures Expr.Whole := by
  have hitem : (elementAndComma rules).Ensures (·.1.1.Whole) :=
    (whole_element forming).bind fun _ helement => ensures_bind fun _ => ensures_pure helement
  have hcollect : (collect (nextIsOp .rbrace) (elementAndComma rules)).Ensures
      fun items => ∀ item ∈ items, item.1.Whole := ensures_collect hitem
  refine ensures_bind fun lbrace => hcollect.withLiterals.bind fun items hitems => ?_
  have helements : ∀ x ∈ items.map (·.1), x.Whole := List.forall_mem_map.2 hitems
  refine ensures_bind fun rbrace => ensures_pure (Expr.whole_of_parts rfl trivial ?_)
  generalize items.map (·.1) = elements at helements ⊢
  simpa [Expr.parts, or_imp, forall_and] using ⟨htype, helements⟩

section

variable {base : Expr} (hbase : base.Whole)

include hbase

theorem whole_call : (call rules base).Ensures fun call => (Expr.call call).Whole := by
  have hitem : (argument rules).Ensures (·.1.value.Whole) :=
    forming.expr.bind fun _ hvalue =>
      ensures_bind fun _ => ensures_bind fun _ => ensures_pure hvalue
  have hcollect : (collect (nextIsOp .rparen) (argument rules)).Ensures
      fun args => ∀ a ∈ args, a.value.Whole := ensures_collect hitem
  refine ensures_bind fun lparen => hcollect.withLiterals.bind fun args hargs => ?_
  refine ensures_bind fun rparen => ensures_pure (Expr.whole_of_parts rfl trivial ?_)
  simpa [Expr.parts] using ⟨hbase, hargs⟩

omit hbase in
theorem whole_bound? (ends : List Operator) :
    (bound? rules ends).Ensures fun bound? => ∀ x ∈ bound?, x.Whole := by
  have hexpr : (return some (← rules.expr) : Parser (Option Expr)).Ensures
      fun bound? => ∀ x ∈ bound?, x.Whole :=
    forming.expr.bind fun x hx => ensures_pure (by simpa using hx)
  refine ensures_bind fun op? => ?_
  cases op? with
  | none => exact hexpr
  | some op => exact .ite (ensures_pure nofun) hexpr

/-- The second colon of a slice and the index behind it are read together, behind a middle index. -/
theorem whole_sliceRest {lbrack : Offset} {low? : Option Expr} (hlow : ∀ x ∈ low?, x.Whole) :
    (sliceRest rules base lbrack low?).Ensures Expr.Whole := by
  refine ensures_bind fun colon => (whole_bound? forming _).bind fun high? hhigh => ?_
  refine ensures_bind fun _ => .ite ?_ ?_
  · cases high? with
    | none => exact ensures_failHere
    | some high =>
      refine ensures_bind fun secondColon => forming.expr.bind fun max hmax => ?_
      refine ensures_bind fun rbrack =>
        ensures_pure (Expr.whole_of_parts rfl ⟨rfl, fun _ => rfl⟩ ?_)
      simpa [Expr.parts, or_imp, forall_and] using ⟨hbase, hlow, hhigh high rfl, hmax⟩
  · have hmax : (none : Option Expr).isSome → high?.isSome := fun hsome =>
      absurd hsome Bool.false_ne_true
    refine ensures_bind fun rbrack => ensures_pure (Expr.whole_of_parts rfl ⟨rfl, hmax⟩ ?_)
    simpa [Expr.parts, or_imp, forall_and] using ⟨hbase, hlow, hhigh⟩

theorem whole_indexOrSlice : (indexOrSlice rules base).Ensures Expr.Whole := by
  refine ensures_bind fun lbrack => (whole_bound? forming _).bind fun first? hfirst => ?_
  cases first? with
  | none => exact whole_sliceRest forming hbase nofun
  | some first =>
    refine ensures_bind fun _ => .ite (whole_sliceRest forming hbase hfirst) ?_
    refine ensures_bind fun rbrack => ensures_pure (Expr.whole_of_parts rfl trivial ?_)
    simpa [Expr.parts] using ⟨hbase, hfirst first rfl⟩

theorem whole_typeAssert (period : Offset) :
    (typeAssert rules base period).Ensures Expr.Whole := by
  refine ensures_bind fun lparen => ensures_bind fun _ => .ite ?_ ?_
  · refine ensures_bind fun keyword => ensures_bind fun rparen => ensures_pure ?_
    exact Expr.whole_of_parts rfl rfl (by simpa [Expr.parts] using hbase)
  · refine forming.type.bind fun type htype => ensures_bind fun rparen => ensures_pure ?_
    exact Expr.whole_of_parts rfl rfl (by simpa [Expr.parts] using ⟨hbase, htype⟩)

theorem whole_selection : (selection rules base).Ensures Expr.Whole := by
  refine ensures_bind fun period => ensures_bind fun _ => .ite ?_ ?_
  · exact whole_typeAssert forming hbase period
  · refine ensures_bind fun name => ensures_pure ?_
    exact Expr.whole_of_parts rfl trivial (by simpa [Expr.parts] using hbase)

end

theorem whole_funcLit : (funcLit rules).Ensures Expr.Whole := by
  refine ensures_bind fun func => (whole_keyedSignature forming func).bind fun type htype => ?_
  refine ensures_bind fun _ => .ite ?_ (ensures_pure htype)
  refine forming.block.bind fun body hbody => ensures_pure ?_
  exact Expr.whole_of_parts rfl trivial (by simpa [Expr.parts] using ⟨htype, hbody⟩)

theorem whole_parenExpr : (parenExpr rules).Ensures Expr.Whole := by
  refine ensures_bind fun lparen => forming.expr.withLiterals.bind fun inner hinner => ?_
  refine ensures_bind fun rparen => ensures_pure (Expr.whole_of_parts rfl trivial ?_)
  simpa [Expr.parts] using hinner

theorem whole_operand : (operand rules).Ensures Expr.Whole := by
  refine ensures_bind fun kind? => ?_
  split
  · exact ensures_bind fun name => ensures_pure Expr.whole_ident
  · exact ensures_bind fun literal => ensures_pure Expr.whole_basicLit
  · exact whole_parenExpr forming
  · exact whole_arrayType forming
  · exact whole_mapType forming
  · exact whole_structType forming
  · exact whole_funcLit forming
  · exact whole_chanType forming
  · exact whole_interfaceType forming
  · exact ensures_unexpected

theorem whole_primaryStep (x : Expr) (hx : x.Whole) :
    (primaryStep rules x).Ensures (Turn.Keeps Expr.Whole Expr.Whole) := by
  refine ensures_bind fun op? => ?_
  split
  · exact (whole_selection forming hx).bind fun _ hy => ensures_pure hy
  · exact (whole_indexOrSlice forming hx).withLiterals.bind fun _ hy => ensures_pure hy
  · exact (whole_call forming hx).bind fun _ hy => ensures_pure hy
  · refine ensures_bind fun _ => .ite ?_ (ensures_pure hx)
    exact (forming.literal (by simpa using hx)).bind fun _ hy => ensures_pure hy
  · exact ensures_pure hx

theorem whole_primary : (primary rules).Ensures Expr.Whole :=
  (whole_operand forming).bind fun _ hx => ensures_iterate hx (whole_primaryStep forming)

theorem whole_unaryOp (op : Operator) : (unaryOp rules op).Ensures Expr.Whole := by
  refine ensures_bind fun place => forming.operand.bind fun x hx => ensures_pure ?_
  exact Expr.whole_of_parts rfl trivial (by simpa [Expr.parts] using hx)

theorem whole_deref : (deref rules).Ensures Expr.Whole := by
  refine ensures_bind fun star => forming.operand.bind fun x hx => ensures_pure ?_
  exact Expr.whole_of_parts rfl trivial (by simpa [Expr.parts] using hx)

theorem whole_unary : (unary rules).Ensures Expr.Whole := by
  refine ensures_bind fun op? => ?_
  split
  · exact ensures_bind fun _ => .ite (whole_chanType forming) (whole_unaryOp forming .arrow)
  · exact whole_unaryOp forming .add
  · exact whole_unaryOp forming .sub
  · exact whole_unaryOp forming .not
  · exact whole_unaryOp forming .xor
  · exact whole_unaryOp forming .and
  · exact whole_deref forming
  · exact whole_primary forming

omit forming in
theorem whole_binaryStep {operand : Parser Expr} (hoperand : operand.Ensures Expr.Whole)
    (precedence : Nat) (x : Expr) (hx : x.Whole) :
    (binaryStep precedence operand x).Ensures (Turn.Keeps Expr.Whole Expr.Whole) := by
  refine ensures_bind fun op? => ?_
  cases op? with
  | none => exact ensures_pure hx
  | some op =>
    refine .ite (ensures_bind fun place => ?_) (ensures_pure hx)
    refine hoperand.bind fun y hy => ensures_pure ?_
    exact Expr.whole_of_parts rfl trivial (by simpa [Expr.parts] using ⟨hx, hy⟩)

theorem whole_binary (levels : Nat) : (binary rules levels).Ensures Expr.Whole := by
  induction levels with
  | zero => exact forming.operand
  | succ levels ih => exact ih.bind fun x hx => ensures_iterate hx (whole_binaryStep ih _)

theorem whole_expr : (expr rules).Ensures Expr.Whole := whole_binary forming 5

/-! ## Declarations -/

omit forming in
theorem whole_importSpec : importSpec.Ensures fun spec => spec.Whole ∧ spec.fits .importKw := by
  refine ensures_bind fun name? => ensures_bind fun _ => .ite ?_ ensures_unexpected
  refine ensures_bind fun path => ensures_pure ⟨Spec.whole_of_parts trivial ?_, rfl⟩
  simp [Spec.parts, or_imp, forall_and]

theorem whole_typeSpec : (typeSpec rules).Ensures fun spec => spec.Whole ∧ spec.fits .typeKw := by
  refine ensures_bind fun name => ensures_bind fun assign? => forming.type.bind fun type htype => ?_
  refine ensures_pure ⟨Spec.whole_of_parts trivial ?_, rfl⟩
  simpa [Spec.parts] using htype

theorem whole_valueSpec : (valueSpec rules).Ensures fun spec =>
    spec.Whole ∧ spec.fits .varKw ∧ spec.fits .constKw := by
  refine length_commaSeparated.bind fun (names, nameCommas) hnames => ensures_bind fun _ =>
    ensures_ite_bind (ensures_pure nofun) forming.type.some fun type? htype =>
      ensures_bind fun assign? => ?_
  have hnames : names ≠ [] := List.ne_nil_of_length_eq_add_one hnames
  cases assign? with
  | none => exact ensures_pure ⟨Spec.whole_values hnames htype nofun, rfl, rfl⟩
  | some assign =>
    exact (whole_exprList forming).bind fun (values, valueCommas) hvalues =>
      ensures_pure ⟨Spec.whole_values hnames htype hvalues, rfl, rfl⟩

section

variable {keyword : Keyword} (hkeyword : keyword ∈ [.importKw, .constKw, .typeKw, .varKw])

include hkeyword

theorem whole_spec : (spec rules keyword).Ensures fun spec => spec.Whole ∧ spec.fits keyword := by
  have hvalue := whole_valueSpec forming
  simp only [List.mem_cons, List.not_mem_nil, or_false] at hkeyword
  rcases hkeyword with rfl | rfl | rfl | rfl
  · exact whole_importSpec
  · exact hvalue.mono fun spec ⟨hspec, _, hfits⟩ => ⟨hspec, hfits⟩
  · exact whole_typeSpec forming
  · exact hvalue.mono fun spec ⟨hspec, hfits, _⟩ => ⟨hspec, hfits⟩

/-- Without brackets one entry is read, and the brackets are read together. -/
theorem whole_genDecl : (genDecl rules keyword).Ensures fun decl => (Decl.gen decl).Whole := by
  refine ensures_bind fun place => ensures_bind fun lparen? => ?_
  cases lparen? with
  | none =>
    refine (whole_spec forming hkeyword).bind fun spec ⟨hspec, hfits⟩ => ensures_pure ?_
    have hformed : (Decl.gen ⟨place, keyword, none, [spec], none⟩).Formed :=
      ⟨rfl, fun _ => ⟨spec, rfl⟩, hkeyword, List.forall_mem_singleton.2 hfits⟩
    exact Decl.whole_of_parts hformed (by simpa [Decl.parts] using hspec)
  | some lparen =>
    refine Ensures.bind (ensures_many ((whole_spec forming hkeyword).bind fun spec hspec =>
      ensures_bind fun _ => ensures_pure hspec)) fun specs hspecs => ?_
    refine ensures_bind fun rparen => ensures_pure ?_
    have hformed : (Decl.gen ⟨place, keyword, some lparen, specs, some rparen⟩).Formed :=
      ⟨rfl, fun hnone => absurd hnone (Option.some_ne_none lparen), hkeyword,
        fun spec hspec => (hspecs spec hspec).2⟩
    exact Decl.whole_of_parts hformed
      (by simpa [Decl.parts] using fun spec hspec => (hspecs spec hspec).1)

end

/-! ## Simple statements -/

omit forming in
theorem whole_single {exprs : List Expr} (hexprs : ∀ x ∈ exprs, x.Whole)
    (expected : Expectation) : (single exprs expected).Ensures Expr.Whole := by
  unfold single
  split
  · exact ensures_pure (hexprs _ (List.mem_singleton_self _))
  · exact ensures_unexpected

theorem whole_labeledBody : (labeledBody rules).Ensures Stmt.Whole :=
  ensures_bind fun _ => .ite
    (ensures_bind fun _ => ensures_pure (Stmt.whole_of_parts trivial nofun)) forming.stmt

section

variable {left : List Expr} (hleft : ∀ x ∈ left, x.Whole)

include hleft

theorem whole_assignment (leftCommas : List Offset) (place : Offset) (op : Operator) :
    (assignment rules left leftCommas place op).Ensures fun s => s.Whole ∧ s.isSimple := by
  refine (whole_exprList forming).bind fun (right, commas) hright => ?_
  refine ensures_pure ⟨Stmt.whole_of_parts trivial ?_, rfl⟩
  simpa [Stmt.parts, or_imp, forall_and] using ⟨hleft, hright⟩

omit forming in
theorem whole_exprStmt : (exprStmt left).Ensures fun s => s.Whole ∧ s.isSimple := by
  refine (whole_single hleft _).bind fun x hx => ensures_pure ⟨Stmt.whole_of_parts trivial ?_, rfl⟩
  simpa [Stmt.parts] using hx

omit forming in
theorem whole_incDec (op : Operator) : (incDec left op).Ensures fun s => s.Whole ∧ s.isSimple := by
  refine (whole_single hleft _).bind fun x hx => ensures_bind fun place => ?_
  refine ensures_pure ⟨Stmt.whole_of_parts trivial ?_, rfl⟩
  simpa [Stmt.parts] using hx

theorem whole_send : (send rules left).Ensures fun s => s.Whole ∧ s.isSimple := by
  refine (whole_single hleft _).bind fun channel hchannel => ensures_bind fun arrow => ?_
  refine forming.expr.bind fun value hvalue => ensures_pure ⟨Stmt.whole_of_parts trivial ?_, rfl⟩
  simpa [Stmt.parts] using ⟨hchannel, hvalue⟩

/-- Where labels may not stand, the statement is simple. -/
theorem whole_labeled (labels : Bool) :
    (labeled rules labels left).Ensures fun s => s.Whole ∧ (labels = false → s.isSimple) := by
  unfold labeled
  split
  · refine ensures_bind fun colon => (whole_labeledBody forming).bind fun stmt hstmt => ?_
    refine ensures_pure ⟨Stmt.whole_of_parts trivial ?_, nofun⟩
    simpa [Stmt.parts] using hstmt
  · exact (whole_exprStmt hleft).mono fun s hs => ⟨hs.1, fun _ => hs.2⟩

theorem whole_simpleRest (labels : Bool) (leftCommas : List Offset) :
    (simpleRest rules labels left leftCommas).Ensures fun s =>
      s.Whole ∧ (labels = false → s.isSimple) := by
  have hsimple : ∀ {p : Parser Stmt}, p.Ensures (fun s => s.Whole ∧ s.isSimple) →
      p.Ensures fun s => s.Whole ∧ (labels = false → s.isSimple) :=
    fun h => h.mono fun s ⟨hs, hsimple⟩ => ⟨hs, fun _ => hsimple⟩
  refine ensures_bind fun op? => ?_
  cases op? with
  | none => exact hsimple (whole_exprStmt hleft)
  | some op =>
    refine .ite (ensures_bind fun place => ?_) ?_
    · exact hsimple (whole_assignment forming hleft leftCommas place op)
    · split
      · exact hsimple (whole_incDec hleft .inc)
      · exact hsimple (whole_incDec hleft .dec)
      · exact whole_labeled forming hleft labels
      · exact hsimple (whole_send forming hleft)
      · exact hsimple (whole_exprStmt hleft)

end

theorem whole_simpleStmt (labels : Bool) : (simpleStmt rules labels).Ensures fun s =>
    s.Whole ∧ (labels = false → s.isSimple) :=
  (whole_exprList forming).bind fun (_, leftCommas) hleft =>
    whole_simpleRest forming hleft labels leftCommas

/-- A statement that stands in a header. -/
theorem whole_headerStmt : (simpleStmt rules false).Ensures fun s => s.Whole ∧ s.isSimple :=
  (whole_simpleStmt forming false).mono fun _ ⟨hs, hsimple⟩ => ⟨hs, hsimple rfl⟩

/-! ## Headers -/

omit forming in
theorem whole_asCondition {stmt : Stmt} (hstmt : stmt.Whole) :
    (asCondition stmt).Ensures Expr.Whole := by
  unfold asCondition
  split
  · rename_i x
    have hx : x.Whole := ⟨hstmt.2.keyed (.expr x) (List.mem_singleton_self _),
      hstmt.2.of_mem_parts (List.mem_singleton_self _)⟩
    exact ensures_pure hx
  · exact ensures_failAt

/-- What a header has in front of its last part: a simple statement and a semicolon, or neither. -/
def HeaderFront (init? : Option Stmt) (semicolon? : Option Offset) : Prop :=
  init?.isSome = semicolon?.isSome ∧ (∀ init ∈ init?, init.Whole) ∧ ∀ init ∈ init?, init.isSimple

theorem whole_ifHeader : (ifHeader rules).Ensures fun header =>
    HeaderFront header.1 header.2.1 ∧ header.2.2.Whole := by
  refine (whole_headerStmt forming).bind fun stmt ⟨hstmt, hsimple⟩ => ensures_bind fun _ => ?_
  refine .ite ?_ ?_
  · refine ensures_bind fun semicolon => forming.expr.bind fun cond hcond => ensures_pure ?_
    exact ⟨⟨rfl, by simpa using hstmt, by simpa using hsimple⟩, hcond⟩
  · refine (whole_asCondition hstmt).bind fun cond hcond => ensures_pure ?_
    exact ⟨⟨rfl, nofun, nofun⟩, hcond⟩

theorem whole_elseBranch : (elseBranch rules).Ensures fun s => s.Whole ∧ s.isElse :=
  ensures_bind fun _ => .ite forming.ifStmt <| ensures_bind fun _ =>
    .ite (forming.block.bind fun _ hblock => ensures_pure ⟨hblock, rfl⟩) ensures_unexpected

theorem whole_ifStmt : (ifStmt rules).Ensures fun s => s.Whole ∧ s.isElse := by
  refine ensures_bind fun place => (whole_ifHeader forming).withLiterals.bind
    fun (init?, semicolon?, cond) ⟨⟨htogether, hinit, hsimple⟩, hcond⟩ =>
      forming.block.bind fun body hbody => ?_
  refine ensures_bind fun _ => .ite (ensures_bind fun elsePlace => ?_) ?_
  · refine (whole_elseBranch forming).bind fun stmt helse => ensures_pure ⟨?_, rfl⟩
    exact Stmt.whole_ifStmt htogether hinit hsimple hcond hbody rfl (by simpa using helse)
  · exact ensures_pure ⟨Stmt.whole_ifStmt htogether hinit hsimple hcond hbody rfl nofun, rfl⟩

/-! ## Loops -/

/-- A loop with this header and a whole body is whole. -/
def LoopHeader.Whole (header : LoopHeader) : Prop :=
  ∀ place body, (Stmt.block body).Whole → (header.toStmt place body).Whole

omit forming in
theorem whole_forClause {init? post? : Option Stmt} {cond? : Option Expr}
    {initSemicolon? condSemicolon? : Option Offset}
    (htogether : initSemicolon?.isSome = condSemicolon?.isSome)
    (hpresent : init?.isSome ∨ post?.isSome → initSemicolon?.isSome)
    (hinit : ∀ init ∈ init?, init.Whole ∧ init.isSimple) (hcond : ∀ cond ∈ cond?, cond.Whole)
    (hpost : ∀ post ∈ post?, post.Whole ∧ post.isSimple) :
    LoopHeader.Whole (.forClause init? initSemicolon? cond? condSemicolon? post?) := by
  intro place body hbody
  refine Stmt.whole_of_parts ⟨htogether, hpresent, fun init h => (hinit init h).2,
    fun post h => (hpost post h).2⟩ ?_
  have hinit := fun init h => (hinit init h).1
  have hpost := fun post h => (hpost post h).1
  simpa [LoopHeader.toStmt, Stmt.parts, or_imp, forall_and] using ⟨hinit, hcond, hpost, hbody⟩

theorem whole_forClauses {init? : Option Stmt}
    (hinit : ∀ init ∈ init?, init.Whole ∧ init.isSimple) :
    (forClauses rules init?).Ensures LoopHeader.Whole := by
  refine ensures_bind fun initSemicolon => ensures_bind fun _ =>
    ensures_ite_bind (ensures_pure nofun) forming.expr.some fun cond? hcond => ?_
  refine ensures_bind fun condSemicolon => ensures_bind fun _ => ?_
  exact ensures_ite_bind (ensures_pure nofun) (whole_headerStmt forming).some
    fun post? hpost => ensures_pure (whole_forClause rfl (fun _ => rfl) hinit hcond hpost)

theorem whole_forHeaderFrom {stmt : Stmt} (hstmt : stmt.Whole ∧ stmt.isSimple) :
    (forHeaderFrom rules stmt).Ensures LoopHeader.Whole := by
  refine ensures_bind fun _ => .ite (whole_forClauses forming (by simpa using hstmt)) ?_
  refine (whole_asCondition hstmt.1).bind fun cond hcond => ensures_pure ?_
  exact whole_forClause rfl (by simp) nofun (by simpa using hcond) nofun

/-- One or two variables of a range, with the comma between them. -/
theorem whole_rangeClause {left : List Expr} {leftCommas : List Offset} {op : Operator}
    (hleft : ∀ x ∈ left, x.Whole) (hlength : left.length = leftCommas.length + 1)
    (hallowed : allowsRange left op = true) (opPlace : Offset) :
    (rangeClause rules left leftCommas opPlace op).Ensures LoopHeader.Whole := by
  refine ensures_bind fun range => forming.expr.bind fun operand hoperand => ensures_pure ?_
  intro place body hbody
  simp only [allowsRange, Bool.and_eq_true, Bool.or_eq_true, beq_iff_eq, decide_eq_true_eq]
    at hallowed
  obtain ⟨hop, hshort⟩ := hallowed
  rcases left with _ | ⟨key, left⟩
  · cases hlength
  have hvalue : leftCommas.head?.isSome = left.head?.isSome := by
    rcases left with _ | ⟨value, left⟩ <;> rcases leftCommas with _ | ⟨comma, commas⟩ <;> simp_all
  have hformed : (LoopHeader.toStmt place body (.rangeClause (key :: left).head? leftCommas.head?
      (key :: left)[1]? (some opPlace) (some op) range operand)).Formed := by
    refine ⟨?_, fun _ => rfl, rfl, rfl, ?_⟩
    · rw [hvalue, List.getElem?_cons_succ, List.head?_eq_getElem?]
    · rintro op' ⟨⟩
      exact hop
  refine Stmt.whole_of_parts hformed ?_
  have hvalue : ∀ x ∈ (key :: left)[1]?, x.Whole := fun x hx => hleft x (List.mem_of_getElem? hx)
  simpa [LoopHeader.toStmt, Stmt.parts, or_imp, forall_and] using
    ⟨hleft key List.mem_cons_self, hvalue, hoperand, hbody⟩

theorem whole_exprHeader : (exprHeader rules).Ensures LoopHeader.Whole := by
  refine ((whole_exprList forming).and length_commaSeparated).bind
    fun (left, leftCommas) ⟨hleft, hlength⟩ => ensures_bind fun op? => ?_
  cases op? with
  | none => exact (whole_exprStmt hleft).bind fun stmt hstmt => whole_forHeaderFrom forming hstmt
  | some op =>
    refine .ite (ensures_bind fun place => ensures_bind fun isRange => ?_) ?_
    · split
      · rename_i hallowed
        have hallowed := (Bool.and_eq_true_iff.1 hallowed).1
        exact whole_rangeClause forming hleft hlength hallowed place
      · exact (whole_assignment forming hleft leftCommas place op).bind fun stmt hstmt =>
          whole_forHeaderFrom forming hstmt
    · exact (whole_simpleRest forming hleft false leftCommas).bind fun stmt ⟨hstmt, hsimple⟩ =>
        whole_forHeaderFrom forming ⟨hstmt, hsimple rfl⟩

theorem whole_loopHeader : (loopHeader rules).Ensures LoopHeader.Whole := by
  refine ensures_bind fun _ => .ite (ensures_pure ?_) ?_
  · exact whole_forClause rfl (by simp) nofun nofun nofun
  refine ensures_bind fun _ => .ite (whole_forClauses forming nofun) ?_
  refine ensures_bind fun _ => .ite ?_ (whole_exprHeader forming)
  refine ensures_bind fun range => forming.expr.bind fun operand hoperand => ensures_pure ?_
  intro place body hbody
  refine Stmt.whole_of_parts ⟨rfl, nofun, rfl, rfl, nofun⟩ ?_
  simpa [LoopHeader.toStmt, Stmt.parts] using ⟨hoperand, hbody⟩

theorem whole_forStmt : (forStmt rules).Ensures Stmt.Whole :=
  ensures_bind fun _ => (whole_loopHeader forming).withLiterals.bind fun _ hheader =>
    forming.block.bind fun _ hbody => ensures_pure (hheader _ _ hbody)

/-! ## Switches and selections -/

omit forming in
theorem whole_block_of_stmts {b : Block} (hformed : b.Formed) (hstmts : ∀ s ∈ b.stmts, s.Whole) :
    (Stmt.block b).Whole := by
  obtain ⟨lbrace, stmts, rbrace⟩ := b
  exact Stmt.whole_of_parts hformed (by simpa [Stmt.parts] using hstmts)

omit forming in
theorem whole_clauseBlock {clause : Parser Stmt} (hclause : clause.Ensures Stmt.Whole)
    (hshuts : clause.Shuts) : (clauseBlock clause).Ensures fun b => (Stmt.block b).Whole := by
  have hstmts : (clauseBlock clause).Ensures fun b => ∀ s ∈ b.stmts, s.Whole :=
    ensures_bind fun lbrace => (ensures_many hclause).bind fun clauses hclauses =>
      ensures_bind fun rbrace => ensures_pure hclauses
  exact ((formed_clauseBlock hshuts).and hstmts).mono fun b ⟨hformed, hstmts⟩ =>
    whole_block_of_stmts hformed hstmts

/-- The statements of a clause, of which only the last may have an open end. -/
theorem whole_body : rules.stmts.Ensures fun stmts =>
    (∀ stmt ∈ stmts, stmt.Whole) ∧ Stmt.OpenLast stmts :=
  forming.stmts.and fun _ _ _ _ hyields => (forming.shutting.stmts hyields).1

theorem whole_caseClause : (caseClause rules).Ensures Stmt.Whole := by
  refine ensures_bind fun _ => .ite (ensures_bind fun place => ?_) (ensures_bind fun place => ?_)
  · exact ensures_bind fun colon => (whole_body forming).bind fun body hbody =>
      ensures_pure (Stmt.whole_caseClause nofun hbody)
  · exact (whole_exprList forming).bind fun (exprs, commas) hexprs => ensures_bind fun colon =>
      (whole_body forming).bind fun body hbody => ensures_pure (Stmt.whole_caseClause hexprs hbody)

theorem whole_commClause : (commClause rules).Ensures Stmt.Whole := by
  refine ensures_bind fun _ => .ite (ensures_bind fun place => ?_) (ensures_bind fun place => ?_)
  · exact ensures_bind fun colon => (whole_body forming).bind fun body hbody =>
      ensures_pure (Stmt.whole_commClause nofun hbody)
  · refine (whole_headerStmt forming).bind fun comm hcomm => ensures_bind fun colon => ?_
    have hcomm : ∀ s ∈ some comm, s.Whole ∧ s.isSimple := by simpa using hcomm
    exact (whole_body forming).bind fun body hbody =>
      ensures_pure (Stmt.whole_commClause hcomm hbody)

theorem whole_switchHeader : (switchHeader rules).Ensures fun header =>
    HeaderFront header.1 header.2.1 ∧ ∀ tag ∈ header.2.2, tag.Whole ∧ tag.isSimple := by
  refine ensures_bind fun _ => .ite (ensures_pure ⟨⟨rfl, nofun, nofun⟩, nofun⟩) ?_
  refine (whole_headerStmt forming).bind fun stmt hstmt => ensures_bind fun _ => ?_
  refine .ite (ensures_bind fun semicolon => ensures_bind fun _ => ?_) ?_
  · refine ensures_ite_bind (ensures_pure nofun) (whole_headerStmt forming).some
      fun tag? htag => ensures_pure ⟨⟨rfl, ?_, ?_⟩, htag⟩
    · simpa using hstmt.1
    · simpa using hstmt.2
  · exact ensures_pure ⟨⟨rfl, nofun, nofun⟩, by simpa using hstmt⟩

theorem whole_switchStmt : (switchStmt rules).Ensures Stmt.Whole := by
  refine ensures_bind fun place => (whole_switchHeader forming).withLiterals.bind
    fun (init?, semicolon?, tag?) ⟨⟨htogether, hinit, hsimple⟩, htag⟩ => ?_
  refine (whole_clauseBlock (whole_caseClause forming)
    (shuts_caseClause forming.shutting)).bind fun body hbody => ?_
  cases tag? with
  | none => exact ensures_pure (Stmt.whole_switchStmt htogether hinit hsimple nofun hbody)
  | some tag =>
    obtain ⟨htag, hguard⟩ := htag tag rfl
    refine .ite (ensures_pure (Stmt.whole_of_parts ⟨htogether, hsimple, hguard⟩ ?_)) ?_
    · simpa [Stmt.parts, or_imp, forall_and] using ⟨hinit, htag, hbody⟩
    · refine (whole_asCondition htag).bind fun cond hcond => ensures_pure ?_
      exact Stmt.whole_switchStmt htogether hinit hsimple (by simpa using hcond) hbody

theorem whole_selectStmt : (selectStmt rules).Ensures Stmt.Whole := by
  refine ensures_bind fun place => (whole_clauseBlock (whole_commClause forming)
    (shuts_commClause forming.shutting)).bind fun body hbody => ?_
  exact ensures_pure (Stmt.whole_of_parts trivial (List.forall_mem_singleton.2 hbody))

/-! ## All statements -/

theorem whole_callOperand (keyword : Keyword) :
    (callOperand rules keyword).Ensures fun call => (Expr.call call).Whole := by
  refine forming.expr.bind fun x hx => ?_
  split
  · exact ensures_pure hx
  · exact ensures_failAt

theorem whole_returnStmt : (returnStmt rules).Ensures Stmt.Whole := by
  refine ensures_bind fun place => ensures_bind fun _ => .ite ?_ ?_
  · exact ensures_pure (Stmt.whole_of_parts trivial nofun)
  · refine (whole_exprList forming).bind fun (results, commas) hresults => ?_
    exact ensures_pure (Stmt.whole_of_parts trivial (by simpa [Stmt.parts] using hresults))

omit forming in
theorem whole_branch (keyword : Keyword) : (branch keyword).Ensures Stmt.Whole := by
  refine ensures_bind fun place => ensures_bind fun _ =>
    ensures_ite_bind ensures_true ensures_true fun label? _ => ensures_pure ?_
  exact Stmt.whole_of_parts trivial (by simp [Stmt.parts])

theorem whole_declStmt {keyword : Keyword}
    (hkeyword : keyword ∈ [.importKw, .constKw, .typeKw, .varKw]) :
    Ensures (do return Stmt.decl (← genDecl rules keyword)) Stmt.Whole :=
  (whole_genDecl forming hkeyword).bind fun _ hdecl =>
    ensures_pure (Stmt.whole_of_parts trivial (List.forall_mem_singleton.2 hdecl))

theorem whole_keywordStmt (keyword : Keyword) : (keywordStmt rules keyword).Ensures Stmt.Whole := by
  unfold keywordStmt
  split
  · exact whole_declStmt forming (by decide)
  · exact whole_declStmt forming (by decide)
  · exact whole_declStmt forming (by decide)
  · exact whole_returnStmt forming
  · exact whole_branch .breakKw
  · exact whole_branch .continueKw
  · exact whole_branch .gotoKw
  · exact ensures_bind fun place => ensures_pure (Stmt.whole_of_parts trivial nofun)
  · exact forming.ifStmt.mono fun _ h => h.1
  · exact whole_forStmt forming
  · exact whole_switchStmt forming
  · exact whole_selectStmt forming
  · exact ensures_bind fun place => (whole_callOperand forming .goKw).bind fun call hcall =>
      ensures_pure (Stmt.whole_of_parts trivial (List.forall_mem_singleton.2 hcall))
  · exact ensures_bind fun place => (whole_callOperand forming .deferKw).bind fun call hcall =>
      ensures_pure (Stmt.whole_of_parts trivial (List.forall_mem_singleton.2 hcall))
  · exact (whole_simpleStmt forming true).mono fun _ h => h.1

theorem whole_stmt : (stmt rules).Ensures Stmt.Whole := by
  refine ensures_bind fun kind? => ?_
  split
  · exact whole_keywordStmt forming _
  · exact forming.block.bind fun _ hblock => ensures_pure hblock
  · exact ensures_bind fun place => ensures_pure (Stmt.whole_of_parts trivial nofun)
  · exact (whole_simpleStmt forming true).mono fun _ h => h.1

theorem whole_stmts : (stmts rules).Ensures fun stmts => ∀ stmt ∈ stmts, stmt.Whole :=
  ensures_many <| (whole_stmt forming).bind fun _ hstmt => .ite (ensures_pure hstmt) <|
    ensures_bind fun _ => ensures_pure hstmt

theorem whole_block : (block rules).Ensures fun b => (Stmt.block b).Whole := by
  have hstmts : (block rules).Ensures fun b => ∀ s ∈ b.stmts, s.Whole :=
    ensures_bind fun lbrace => (whole_stmts forming).withLiterals.bind fun stmts hstmts =>
      ensures_bind fun rbrace => ensures_pure hstmts
  exact ((formed_block forming.shutting).and hstmts).mono fun b ⟨hformed, hstmts⟩ =>
    whole_block_of_stmts hformed hstmts

/-! ## Files -/

/-- The signature of a declared function has no keyword: the function has it. -/
theorem whole_funcDecl : (funcDecl rules).Ensures fun decl => (Decl.func decl).Whole := by
  refine ensures_bind fun func => ensures_bind fun _ => ensures_ite_bind
    (whole_parameters forming).some (ensures_pure nofun) fun receiver? hreceiver => ?_
  refine ensures_bind fun name => ensures_bind fun _ => .ite ensures_failHere ?_
  refine (whole_signature forming none).bind fun type ⟨hfunc, hparams, hresults⟩ =>
    ensures_bind fun _ => ?_
  refine ensures_ite_bind forming.block.some (ensures_pure nofun) fun body? hbody =>
    ensures_pure (Decl.whole_of_parts hfunc ?_)
  simpa [Decl.parts, or_imp, forall_and] using ⟨hreceiver, hparams, hresults, hbody⟩

theorem whole_decl : (decl rules).Ensures Decl.Whole := by
  refine ensures_bind fun keyword? => ?_
  split
  · exact (whole_funcDecl forming).bind fun _ hdecl => ensures_pure hdecl
  · exact (whole_genDecl forming (by decide)).bind fun _ hdecl => ensures_pure hdecl
  · exact (whole_genDecl forming (by decide)).bind fun _ hdecl => ensures_pure hdecl
  · exact (whole_genDecl forming (by decide)).bind fun _ hdecl => ensures_pure hdecl
  · exact (whole_genDecl forming (by decide)).bind fun _ hdecl => ensures_pure hdecl
  · exact ensures_unexpected

theorem whole_file : (file rules).Ensures fun file => (Node.file file).AllFormed := by
  refine ensures_bind fun package => ensures_bind fun name => ensures_bind fun _ => ?_
  refine Ensures.bind (ensures_many ((whole_decl forming).bind fun decl hdecl =>
    ensures_bind fun _ => ensures_pure hdecl)) fun decls hdecls => ?_
  refine ensures_bind fun last => ensures_bind fun state => ensures_pure ?_
  have hparts : ∀ part ∈ (Node.file ⟨package, name, decls, state.comments.toList,
      ⟨.zero, last.span.stop⟩⟩).parts, part.Whole := by
    simpa [Node.parts] using hdecls
  exact Node.allFormed_of_parts trivial (fun part hpart => (hparts part hpart).1)
    fun part hpart => (hparts part hpart).2

end Grammar

/-! ## All levels -/

/-- The rules of every level return whole trees. -/
theorem forming_level (depth : Nat) : (Nested.level depth).Forming := by
  induction depth with
  | zero =>
    exact {
      type := Parser.ensures_failHere
      expr := Parser.ensures_failHere
      operand := Parser.ensures_failHere
      literal := fun _ => Parser.ensures_failHere
      block := Parser.ensures_failHere
      ifStmt := Parser.ensures_failHere
      stmt := Parser.ensures_failHere
      stmts := Parser.ensures_failHere
      shutting := shutting_level 0 }
  | succ depth forming =>
    exact {
      type := Grammar.whole_type forming
      expr := Grammar.whole_expr forming
      operand := Grammar.whole_unary forming
      literal := Grammar.whole_literal forming
      block := Grammar.whole_block forming
      ifStmt := Grammar.whole_ifStmt forming
      stmt := Grammar.whole_stmt forming
      stmts := Grammar.whole_stmts forming
      shutting := shutting_level (depth + 1) }

/-- Every node of a file that a list of tokens spells is well formed. -/
theorem formed_of_parseTokens {ts : List Token} {file : File} (h : parseTokens ts = .ok file) :
    ∀ node ∈ file.nodes, node.Formed ∧ node.Keyed := by
  rw [parseTokens] at h
  split at h
  · rename_i read st hyields
    obtain rfl := Except.ok.inj h
    exact Grammar.whole_file (forming_level maxNesting) hyields
  · cases h

end GoTrace
