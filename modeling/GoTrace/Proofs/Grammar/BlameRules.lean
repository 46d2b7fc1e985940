import GoTrace.Proofs.Grammar.Blame
import GoTrace.Proofs.Grammar.File
import GoTrace.Proofs.Grammar.Parameters

/-!
# What the rules of the grammar blame

The rules blame what may be blamed (`Parser.Blames`). Most of them are sequences, choices and loops
of parsers that do, and only look at what they have read to choose between these, so a rule is
opened, its cases are told apart, and the search for instances goes through what is left as it is
written.

Some rules blame a tree, and for these it is shown that the tree has been read: a type among
parameters that cannot be grouped (`parameters`), a statement where a condition should stand, either
in a header (`ifHeader`, `exprHeader`) or judged behind the body (`switchStmt`), and an expression
that should be a call (`callOperand`).
-/

namespace GoTrace

/-- The rules that go one level deeper read what they return, and blame what may be blamed. -/
class Nested.Blaming (st₀ : ParseState) (rules : Nested) : Prop where
  sound : rules.Sound
  type : rules.type.Blames st₀
  expr : rules.expr.Blames st₀
  operand : rules.operand.Blames st₀
  literal : ∀ type?, (rules.literal type?).Blames st₀
  block : rules.block.Blames st₀
  ifStmt : rules.ifStmt.Blames st₀
  stmt : rules.stmt.Blames st₀
  stmts : rules.stmts.Blames st₀

attribute [instance] Nested.Blaming.type Nested.Blaming.expr Nested.Blaming.operand
  Nested.Blaming.literal Nested.Blaming.block Nested.Blaming.ifStmt Nested.Blaming.stmt
  Nested.Blaming.stmts

namespace Grammar

open GoTrace.Parser

variable {st₀ : ParseState} {rules : Nested} [blaming : rules.Blaming st₀]

/-! ## Types -/

instance : Blames st₀ typeName := by
  refine blames_bind fun name => blames_bind fun period? => ?_
  cases period? <;> infer_instance

instance : Blames st₀ (arrayLength? rules) := by
  refine blames_bind fun isRbrack => ?_
  split
  · infer_instance
  · refine blames_bind fun dots? => ?_
    cases dots? <;> infer_instance

instance : Blames st₀ (arrayType rules) := by
  unfold arrayType
  infer_instance

instance : Blames st₀ (mapType rules) := by
  unfold mapType
  infer_instance

instance : Blames st₀ (chanType rules) := by
  refine blames_bind fun recv? => ?_
  cases recv? with
  | some arrow => infer_instance
  | none =>
    refine blames_bind fun chan => blames_bind fun send? => ?_
    cases send? <;> infer_instance

instance : Blames st₀ (parenType rules) := by
  unfold parenType
  infer_instance

instance : Blames st₀ (pointerType rules) := by
  unfold pointerType
  infer_instance

instance {field : Parser Field} [Blames st₀ field] : Blames st₀ (bracedFields field) := by
  unfold bracedFields
  infer_instance

instance : Blames st₀ (tag?) := by
  unfold tag?
  infer_instance

instance : Blames st₀ (structField rules) := by
  unfold structField
  infer_instance

instance : Blames st₀ (structType rules) := by
  unfold structType
  infer_instance

instance : Blames st₀ (parameterType rules) := by
  refine blames_bind fun dots? => ?_
  cases dots? <;> infer_instance

instance : Blames st₀ (parameter rules) := by
  unfold parameter
  infer_instance

omit blaming in
/-- The type of an entry of a parameter list has been read, so it may be blamed. -/
theorem blamed_of_mem_entries {entries : List ParamEntry} {st st' : ParseState}
    (h : ReadsEntries entries st st') (hst : st₀.Reaches st) :
    ∀ entry ∈ entries, Blamed st₀ entry.type.span := by
  induction h with
  | nil => exact List.forall_mem_nil _
  | cons hname htype hcomma _ ih =>
    have hst₁ := hname.reaches hst
    exact List.forall_mem_cons.2
      ⟨.expr hst₁ htype, ih (hcomma.reaches (htype.reaches hst₁))⟩

/-- Parameters that cannot be grouped are blamed on the type of an entry. -/
instance : Blames st₀ (parameters rules) := by
  refine blames_bind fun opening => ?_
  refine Blames.bind_of_yields inferInstance fun {_ _ entries _} hst hentries => ?_
  have hblamed := blamed_of_mem_entries (readsEntries_of_collect blaming.sound hentries) hst
  have hgroup : Blames st₀ (fromExcept (ParamEntry.group entries)) := by
    refine blames_fromExcept fun e he => ?_
    obtain ⟨entry, hentry, -, hspan⟩ := ParamEntry.span_of_group_eq_error he
    exact hspan ▸ hblamed entry hentry
  infer_instance

instance : Blames st₀ (results? rules) := by
  unfold results?
  infer_instance

instance {func? : Option Offset} : Blames st₀ (signature rules func?) := by
  unfold signature
  infer_instance

instance : Blames st₀ (interfaceElem rules) := by
  unfold interfaceElem
  infer_instance

instance : Blames st₀ (interfaceType rules) := by
  unfold interfaceType
  infer_instance

instance : Blames st₀ (funcType rules) := by
  unfold funcType
  infer_instance

instance : Blames st₀ (type rules) := by
  refine blames_bind fun kind? => ?_
  split <;> infer_instance

/-! ## Expressions -/

instance : Blames st₀ (exprList rules) := by
  unfold exprList
  infer_instance

instance : Blames st₀ (elementPart rules) := by
  unfold elementPart
  infer_instance

instance : Blames st₀ (element rules) := by
  refine blames_bind fun key => blames_bind fun colon? => ?_
  cases colon? <;> infer_instance

instance : Blames st₀ (elementAndComma rules) := by
  unfold elementAndComma
  infer_instance

instance {type? : Option Expr} : Blames st₀ (literal rules type?) := by
  unfold literal
  infer_instance

instance {x : Expr} : Blames st₀ (opensLiteral x) := by
  cases x <;> unfold opensLiteral <;> infer_instance

instance : Blames st₀ (argument rules) := by
  unfold argument
  infer_instance

instance {fn : Expr} : Blames st₀ (call rules fn) := by
  unfold call
  infer_instance

instance {ends : List Operator} : Blames st₀ (bound? rules ends) := by
  refine blames_bind fun op? => ?_
  cases op? <;> infer_instance

instance {base : Expr} {lbrack : Offset} {low? : Option Expr} :
    Blames st₀ (sliceRest rules base lbrack low?) := by
  unfold sliceRest
  infer_instance

instance {base : Expr} : Blames st₀ (indexOrSlice rules base) := by
  refine blames_bind fun lbrack => blames_bind fun first? => ?_
  cases first? <;> infer_instance

instance {base : Expr} {period : Offset} : Blames st₀ (typeAssert rules base period) := by
  unfold typeAssert
  infer_instance

instance {base : Expr} : Blames st₀ (selection rules base) := by
  unfold selection
  infer_instance

instance : Blames st₀ (funcLit rules) := by
  unfold funcLit
  infer_instance

instance : Blames st₀ (parenExpr rules) := by
  unfold parenExpr
  infer_instance

instance : Blames st₀ (operand rules) := by
  refine blames_bind fun kind? => ?_
  split <;> infer_instance

instance {x : Expr} : Blames st₀ (primaryStep rules x) := by
  refine blames_bind fun op? => ?_
  split <;> infer_instance

instance : Blames st₀ (primary rules) := by
  unfold primary
  infer_instance

instance {op : Operator} : Blames st₀ (unaryOp rules op) := by
  unfold unaryOp
  infer_instance

instance : Blames st₀ (deref rules) := by
  unfold deref
  infer_instance

instance : Blames st₀ (unary rules) := by
  refine blames_bind fun op? => ?_
  split <;> infer_instance

instance {precedence : Nat} {operand : Parser Expr} [Blames st₀ operand] {x : Expr} :
    Blames st₀ (binaryStep precedence operand x) := by
  refine blames_bind fun op? => ?_
  cases op? <;> infer_instance

instance {levels : Nat} : Blames st₀ (binary rules levels) := by
  induction levels with
  | zero => exact blaming.operand
  | succ levels ih =>
    unfold binary
    infer_instance

instance : Blames st₀ (expr rules) := by
  unfold expr
  infer_instance

/-! ## Declarations -/

instance : Blames st₀ importName? := by
  refine blames_bind fun isIdent => ?_
  split
  · infer_instance
  · refine blames_bind fun period? => ?_
    cases period? <;> infer_instance

instance : Blames st₀ (importSpec) := by
  unfold importSpec
  infer_instance

instance : Blames st₀ (typeSpec rules) := by
  unfold typeSpec
  infer_instance

instance : Blames st₀ (valueSpec rules) := by
  refine blames_bind fun (names, nameCommas) => blames_bind fun kind? => ?_
  have hvalues : ∀ type?, Blames st₀ (do
      match ← takeOp? .assign with
      | some assign =>
        let (values, valueCommas) ← exprList rules
        return Spec.values names nameCommas type? (some assign) values valueCommas
      | none => return Spec.values names nameCommas type? none [] []) := fun type? => by
    refine blames_bind fun assign? => ?_
    cases assign? <;> infer_instance
  split <;> exact blames_bind hvalues

instance {keyword : Keyword} : Blames st₀ (spec rules keyword) := by
  unfold spec
  split <;> infer_instance

instance {keyword : Keyword} : Blames st₀ (genDecl rules keyword) := by
  refine blames_bind fun place => blames_bind fun lparen? => ?_
  cases lparen? <;> infer_instance

/-! ## Statements -/

instance {exprs : List Expr} {expected : Expectation} : Blames st₀ (single exprs expected) := by
  unfold single
  split <;> infer_instance

instance : Blames st₀ (labeledBody rules) := by
  unfold labeledBody
  infer_instance

instance {left : List Expr} {leftCommas : List Offset} {place : Offset}
    {op : Operator} : Blames st₀ (assignment rules left leftCommas place op) := by
  unfold assignment
  infer_instance

instance {left : List Expr} : Blames st₀ (exprStmt left) := by
  unfold exprStmt
  infer_instance

instance {left : List Expr} {op : Operator} : Blames st₀ (incDec left op) := by
  unfold incDec
  infer_instance

instance {left : List Expr} : Blames st₀ (send rules left) := by
  unfold send
  infer_instance

instance {labels : Bool} {left : List Expr} : Blames st₀ (labeled rules labels left) := by
  unfold labeled
  split <;> infer_instance

instance {labels : Bool} {left : List Expr} {leftCommas : List Offset} :
    Blames st₀ (simpleRest rules labels left leftCommas) := by
  refine blames_bind fun op? => ?_
  cases op? with
  | none => infer_instance
  | some op =>
    dsimp only
    split
    · infer_instance
    · split <;> infer_instance

instance {labels : Bool} : Blames st₀ (simpleStmt rules labels) := by
  unfold simpleStmt
  infer_instance

/-! ## Headers -/

omit blaming in
/-- A statement that is no condition is blamed itself, so it has to be read before. -/
theorem blames_asCondition {stmt : Stmt} (h : Blamed st₀ stmt.span) :
    Blames st₀ (asCondition stmt) := by
  unfold asCondition
  split
  · infer_instance
  · exact blames_failAt h

instance : Blames st₀ (ifHeader rules) := by
  refine Blames.bind_of_yields inferInstance fun {_ _ stmt _} hst hstmt => ?_
  have hcond := blames_asCondition (.stmt hst (lays_simpleStmt blaming.sound hstmt))
  infer_instance

instance : Blames st₀ (elseBranch rules) := by
  unfold elseBranch
  infer_instance

instance : Blames st₀ (ifStmt rules) := by
  unfold ifStmt
  infer_instance

instance {init? : Option Stmt} : Blames st₀ (forClauses rules init?) := by
  refine blames_bind fun initSemicolon => blames_bind fun isSemicolon => ?_
  split <;> exact blames_bind fun cond? => inferInstance

theorem blames_forHeaderFrom {stmt : Stmt} (h : Blamed st₀ stmt.span) :
    Blames st₀ (forHeaderFrom rules stmt) := by
  have hcond := blames_asCondition h
  unfold forHeaderFrom
  infer_instance

instance {left : List Expr} {leftCommas : List Offset} {opPlace : Offset} {op : Operator} :
    Blames st₀ (rangeClause rules left leftCommas opPlace op) := by
  unfold rangeClause
  infer_instance

/-- The statement that a header begins with is read from the state in which the header begins. -/
instance : Blames st₀ (exprHeader rules) where
  blamesAt {st} hst := by
    have hrest : ∀ {stmt : Stmt} {st' : ParseState}, stmt.layout.Reads st st' →
        Blames st₀ (forHeaderFrom rules stmt) := fun hstmt => blames_forHeaderFrom (.stmt hst hstmt)
    refine .bind (Blames.blamesAt hst) fun {_ exprs st₁} hst₁ hexprs => ?_
    obtain ⟨left, leftCommas⟩ := exprs
    replace hexprs := readsRun_exprList blaming.sound hexprs
    refine .bind (Blames.blamesAt hst₁) fun {_ op? _} _ hpeek => ?_
    obtain ⟨rfl, hop⟩ := nextKind?_of_peekOp? hpeek
    cases op? with
    | none =>
      refine .bind (Blames.blamesAt hst₁) fun hst₂ hstmt => ?_
      exact (hrest (reads_exprStmt hstmt hexprs)).blamesAt hst₂
    | some op =>
      dsimp only
      split
      · rename_i hassign
        refine .bind (Blames.blamesAt hst₁) fun {_ place st₂} hst₂ hplace => ?_
        replace hplace := marks_of_takePlace hplace (hop rfl)
        refine .bind (Blames.blamesAt hst₂) fun hst₃ hpeek => ?_
        obtain ⟨rfl, rfl⟩ := (yields_of_peeks (peeks_nextIsKeyword _)).1 hpeek
        split
        · exact Blames.blamesAt hst₂
        · refine .bind (Blames.blamesAt hst₂) fun hst₃ hstmt => ?_
          exact (hrest (reads_assignment blaming.sound hstmt hexprs hplace hassign)).blamesAt hst₃
      · refine .bind (Blames.blamesAt hst₁) fun hst₂ hstmt => ?_
        exact (hrest (reads_simpleRest blaming.sound hstmt hexprs)).blamesAt hst₂

instance : Blames st₀ (loopHeader rules) := by
  unfold loopHeader
  infer_instance

instance : Blames st₀ (forStmt rules) := by
  unfold forStmt
  infer_instance

/-! ## Switches and selections -/

instance {clause : Parser Stmt} [Blames st₀ clause] : Blames st₀ (clauseBlock clause) := by
  unfold clauseBlock
  infer_instance

instance : Blames st₀ (caseClause rules) := by
  unfold caseClause
  infer_instance

instance : Blames st₀ (commClause rules) := by
  unfold commClause
  infer_instance

instance : Blames st₀ (switchHeader rules) := by
  refine blames_bind fun isLbrace => ?_
  split
  · infer_instance
  · exact blames_bind fun stmt => inferInstance

/-- What is switched on is judged, and may be blamed, when the body has been read as well. -/
instance : Blames st₀ (switchStmt rules) := by
  refine blames_bind fun place => ?_
  refine Blames.bind_of_yields inferInstance fun {_ _ header _} hst hheader => ?_
  obtain ⟨init?, semicolon?, tag?⟩ := header
  refine blames_bind fun body => ?_
  cases tag? with
  | none => infer_instance
  | some tag =>
    obtain ⟨st₁, st₂, hinit, hsemicolon, htag⟩ :=
      reads_switchHeader blaming.sound (yields_withLiterals.1 hheader)
    have hcond := blames_asCondition (.stmt (hsemicolon.reaches (hinit.reaches hst)) htag)
    dsimp only
    infer_instance

instance : Blames st₀ (selectStmt rules) := by
  unfold selectStmt
  infer_instance

/-! ## All statements -/

/-- An expression that is no call is blamed when it has been read. -/
instance {keyword : Keyword} : Blames st₀ (callOperand rules keyword) := by
  refine Blames.bind_of_yields inferInstance fun {_ _ x _} hst hx => ?_
  have hblamed : Blamed st₀ x.span := .expr hst (blaming.sound.expr hx)
  split
  · infer_instance
  · exact blames_failAt hblamed

instance : Blames st₀ (returnStmt rules) := by
  unfold returnStmt
  infer_instance

instance {keyword : Keyword} : Blames st₀ (branch keyword) := by
  unfold branch
  infer_instance

instance {keyword : Keyword} : Blames st₀ (keywordStmt rules keyword) := by
  unfold keywordStmt
  split <;> infer_instance

instance : Blames st₀ (stmt rules) := by
  refine blames_bind fun kind? => ?_
  split <;> infer_instance

instance : Blames st₀ (stmtLine rules) := by
  unfold stmtLine
  infer_instance

instance : Blames st₀ (stmts rules) := by
  unfold stmts
  infer_instance

instance : Blames st₀ (block rules) := by
  unfold block
  infer_instance

/-! ## Files -/

instance : Blames st₀ (funcDecl rules) := by
  refine blames_bind fun func => blames_bind fun isLparen => ?_
  split <;> exact blames_bind fun receiver? => inferInstance

instance : Blames st₀ (decl rules) := by
  refine blames_bind fun keyword? => ?_
  split <;> infer_instance

instance : Blames st₀ (declLine rules) := by
  unfold declLine
  infer_instance

instance : Blames st₀ (file rules) := by
  unfold file
  infer_instance

end Grammar

/-! ## All levels -/

/-- The rules of every level blame what may be blamed. -/
instance {st₀ : ParseState} {depth : Nat} : (Nested.level depth).Blaming st₀ := by
  induction depth with
  | zero =>
    exact {
      sound := sound_level 0
      type := inferInstanceAs (Parser.Blames st₀ (Parser.failHere _))
      expr := inferInstanceAs (Parser.Blames st₀ (Parser.failHere _))
      operand := inferInstanceAs (Parser.Blames st₀ (Parser.failHere _))
      literal := fun _ => inferInstanceAs (Parser.Blames st₀ (Parser.failHere _))
      block := inferInstanceAs (Parser.Blames st₀ (Parser.failHere _))
      ifStmt := inferInstanceAs (Parser.Blames st₀ (Parser.failHere _))
      stmt := inferInstanceAs (Parser.Blames st₀ (Parser.failHere _))
      stmts := inferInstanceAs (Parser.Blames st₀ (Parser.failHere _)) }
  | succ depth blaming =>
    exact {
      sound := sound_level (depth + 1)
      type := inferInstanceAs (Parser.Blames st₀ (Grammar.type _))
      expr := inferInstanceAs (Parser.Blames st₀ (Grammar.expr _))
      operand := inferInstanceAs (Parser.Blames st₀ (Grammar.unary _))
      literal := fun _ => inferInstanceAs (Parser.Blames st₀ (Grammar.literal _ _))
      block := inferInstanceAs (Parser.Blames st₀ (Grammar.block _))
      ifStmt := inferInstanceAs (Parser.Blames st₀ (Grammar.ifStmt _))
      stmt := inferInstanceAs (Parser.Blames st₀ (Grammar.stmt _))
      stmts := inferInstanceAs (Parser.Blames st₀ (Grammar.stmts _)) }

end GoTrace
