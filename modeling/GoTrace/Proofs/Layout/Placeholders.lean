import GoTrace.Proofs.Layout.Nodes

/-!
# Placeholders for nodes

Any expression, statement or declaration may give way to the placeholder of its kind that covers the
same bytes. What the nodes around it make of their other parts does not change: a construct asks its
parts for their spans and nothing else. So the layout of a node can be read off, but for the insides
of its parts, from the node with placeholders for these (`Node.shell_hollow`), and the events of a
tree with a placeholder in it are those of the tree, but for the events of what gave way
(`Node.Blanked.exists_events`).
-/

namespace GoTrace

/-! ## Layouts without the insides of their parts -/

/-- The construct with a placeholder for its layout. -/
def Layout.blank (l : Layout) : Layout := .placeholder .badExpr l.span

/-- The row with placeholders for its constructs. -/
def Row.shell : Row → Row
  | .child layout? => .child (layout?.map Layout.blank)
  | .list items separators => .list (items.map Layout.blank) separators
  | .token text place? => .token text place?
  | .lexeme lexeme? => .lexeme lexeme?
  | .checkpoint label present => .checkpoint label present

/-- The layout with placeholders for its parts. -/
def Layout.shell : Layout → Layout
  | .node kind span rows => .node kind span (rows.map Row.shell)
  | .placeholder kind span => .placeholder kind span

theorem Layout.span_shell (l : Layout) : l.shell.span = l.span := by
  cases l <;> rfl

/-- A layout covers the bytes that its shell does. -/
theorem Layout.span_eq_of_shell {l l' : Layout} (h : l.shell = l'.shell) : l.span = l'.span := by
  rw [← l.span_shell, h, l'.span_shell]

theorem Layout.start_of_blank {l l' : Layout} (h : l.blank = l'.blank) : l.start = l'.start := by
  have hspan : l.span = l'.span := (Layout.placeholder.inj h).2
  rw [start, start, hspan]

section Events

variable {l l' : Layout} {front back : List Layout}

/-- Where a list of two lists is cut at an element, that is in the one or in the other. -/
private theorem cut_append {α : Type} {as bs front back : List α} {a : α}
    (h : as ++ bs = front ++ a :: back) :
    (∃ mid, front = as ++ mid ∧ bs = mid ++ a :: back) ∨
      ∃ mid, as = front ++ a :: mid ∧ back = mid ++ bs := by
  rcases List.append_eq_append_iff.1 h with ⟨mid, hfront, hbs⟩ | ⟨mid, has, hback⟩
  · exact .inl ⟨mid, hfront, hbs⟩
  · cases mid with
    | nil => exact .inl ⟨[], by simpa using has.symm, by simpa using hback.symm⟩
    | cons first mid =>
      obtain ⟨rfl, rfl⟩ := List.cons.inj hback
      exact .inr ⟨mid, has, rfl⟩

/-- The events of a run, where one construct gives way to another that starts at the same place. -/
theorem Layout.exists_runEvents (owner : NodeKind) (depth : Nat) (front back : List Layout)
    (separators : List Offset) (h : l.start = l'.start) :
    ∃ before after,
      runEvents owner depth (front ++ l :: back) separators =
          before ++ (l.events depth ++ after) ∧
        runEvents owner depth (front ++ l' :: back) separators =
          before ++ (l'.events depth ++ after) := by
  induction front generalizing separators with
  | nil =>
    refine ⟨Event.commas owner (separators.takeWhile (· < l.start)),
      runEvents owner depth back (separators.dropWhile (· < l.start)), ?_, ?_⟩
    · rw [List.nil_append, runEvents, List.append_assoc]
    · rw [List.nil_append, runEvents, List.append_assoc, h]
  | cons item front ih =>
    obtain ⟨before, after, hl, hl'⟩ := ih (separators.dropWhile (· < item.start))
    refine ⟨Event.commas owner (separators.takeWhile (· < item.start)) ++ item.events depth ++ before,
      after, ?_, ?_⟩
    · rw [List.cons_append, runEvents, hl, List.append_assoc (_ ++ _)]
    · rw [List.cons_append, runEvents, hl', List.append_assoc (_ ++ _)]

/-- Rows with equal shells are the same and have no constructs, or they have constructs with equal
spans. -/
theorem Row.cases_of_shell {row row' : Row} (h : row.shell = row'.shell) :
    (row' = row ∧ row.parts = []) ∨
      (∃ m m', row = .child (some m) ∧ row' = .child (some m') ∧ m.blank = m'.blank) ∨
      ∃ items items' separators, row = .list items separators ∧ row' = .list items' separators ∧
        items.map Layout.blank = items'.map Layout.blank := by
  cases row with
  | child layout? =>
    cases row' with
    | child layout?' =>
      have hmap := Row.child.inj h
      cases layout? with
      | none =>
        cases layout?' with
        | none => exact .inl ⟨rfl, rfl⟩
        | some m' => cases hmap
      | some m =>
        cases layout?' with
        | none => cases hmap
        | some m' => exact .inr (.inl ⟨m, m', rfl, rfl, Option.some.inj hmap⟩)
    | _ => cases h
  | list items separators =>
    cases row' with
    | list items' separators' =>
      obtain ⟨hitems, rfl⟩ := Row.list.inj h
      exact .inr (.inr ⟨items, items', separators, rfl, rfl, hitems⟩)
    | _ => cases h
  | _ =>
    refine .inl ⟨?_, rfl⟩
    cases row' <;> first | exact h.symm | cases h

theorem Row.length_parts_of_shell {row row' : Row} (h : row.shell = row'.shell) :
    row.parts.length = row'.parts.length := by
  rcases cases_of_shell h with ⟨rfl, -⟩ | ⟨m, m', rfl, rfl, -⟩ | ⟨items, items', _, rfl, rfl, hitems⟩
  · rfl
  · rfl
  · simpa [parts] using congrArg List.length hitems

/-- Rows are known from their shells and their constructs. -/
theorem Row.eq_of_shell {row row' : Row} (h : row.shell = row'.shell)
    (hparts : row.parts = row'.parts) : row = row' := by
  rcases cases_of_shell h with ⟨rfl, -⟩ | ⟨m, m', rfl, rfl, -⟩ | ⟨items, items', _, rfl, rfl, -⟩
  · rfl
  · rw [List.singleton_inj.1 hparts]
  · rw [show items = items' from hparts]

theorem Row.all_eq_of_shell {rows rows' : List Row} (h : rows.map shell = rows'.map shell)
    (hparts : rows.flatMap parts = rows'.flatMap parts) : rows = rows' := by
  induction rows generalizing rows' with
  | nil => exact (List.map_eq_nil_iff.1 h.symm).symm
  | cons row rows ih =>
    obtain ⟨row', rows', rfl, hrow, hrows⟩ := List.map_eq_cons_iff.1 h.symm
    rw [List.flatMap_cons, List.flatMap_cons] at hparts
    obtain ⟨hpart, hparts⟩ := List.append_inj hparts (length_parts_of_shell hrow.symm)
    rw [eq_of_shell hrow.symm hpart, ih hrows.symm hparts]

/-- The events of a row, where one of its constructs gives way to another. -/
theorem Row.exists_events (owner : NodeKind) (depth : Nat) {row row' : Row}
    (hshell : row.shell = row'.shell) (h : row.parts = front ++ l :: back)
    (h' : row'.parts = front ++ l' :: back) :
    ∃ before after, row.events owner depth = before ++ (l.events depth ++ after) ∧
      row'.events owner depth = before ++ (l'.events depth ++ after) := by
  rcases cases_of_shell hshell with
    ⟨-, hnil⟩ | ⟨m, m', rfl, rfl, -⟩ | ⟨items, items', separators, rfl, rfl, hitems⟩
  · rw [hnil] at h
    simp at h
  · obtain ⟨rfl, rfl, rfl⟩ : front = [] ∧ l = m ∧ back = [] := by
      simpa [parts, List.singleton_eq_append_iff] using h
    obtain rfl : m' = l' := by simpa [parts] using h'
    exact ⟨[], [], by simp [events], by simp [events]⟩
  · obtain rfl : items = front ++ l :: back := h
    obtain rfl : items' = front ++ l' :: back := h'
    refine Layout.exists_runEvents owner depth front back separators ?_
    exact Layout.start_of_blank (by simpa using hitems)

/-- The events of some rows, where one of their constructs gives way to another. -/
theorem Row.exists_allEvents (owner : NodeKind) (depth : Nat) {rows rows' : List Row}
    (hshell : rows.map shell = rows'.map shell) (h : rows.flatMap parts = front ++ l :: back)
    (h' : rows'.flatMap parts = front ++ l' :: back) :
    ∃ before after, allEvents owner depth rows = before ++ (l.events depth ++ after) ∧
      allEvents owner depth rows' = before ++ (l'.events depth ++ after) := by
  induction rows generalizing rows' front with
  | nil => simp at h
  | cons row rows ih =>
    obtain ⟨row', rows', rfl, hrow, hrows⟩ := List.map_eq_cons_iff.1 hshell.symm
    have hlength := length_parts_of_shell hrow
    rw [List.flatMap_cons] at h h'
    rcases cut_append h with ⟨mid, rfl, hmid⟩ | ⟨mid, hmid, rfl⟩
    · -- the construct is behind the first row
      rw [List.append_assoc] at h'
      obtain ⟨hpart, hmid'⟩ := List.append_inj h' hlength
      obtain ⟨before, after, hl, hl'⟩ := ih hrows.symm hmid hmid'
      refine ⟨row.events owner depth ++ before, after, ?_, ?_⟩
      · rw [allEvents, hl, List.append_assoc]
      · rw [allEvents, hl', List.append_assoc, eq_of_shell hrow hpart]
    · -- it is in the first row
      rw [← List.cons_append, ← List.append_assoc] at h'
      obtain ⟨hpart, hparts⟩ := List.append_inj h' (by rw [hlength, hmid]; simp)
      obtain ⟨before, after, hl, hl'⟩ := exists_events owner depth hrow.symm hmid hpart
      refine ⟨before, after ++ allEvents owner depth rows, ?_, ?_⟩
      · rw [allEvents, hl]
        simp only [List.append_assoc]
      · rw [allEvents, hl', all_eq_of_shell hrows hparts]
        simp only [List.append_assoc]

/-- **The events of a construct in which a part gives way to another** that covers the same bytes
are those of the construct, but for the events of the part. -/
theorem Layout.exists_events (depth : Nat) {m m' : Layout} (hshell : m.shell = m'.shell)
    (h : m.parts = front ++ l :: back) (h' : m'.parts = front ++ l' :: back) :
    ∃ before after, m.events depth = before ++ (l.events (depth + 1) ++ after) ∧
      m'.events depth = before ++ (l'.events (depth + 1) ++ after) := by
  cases m with
  | placeholder kind span => simp [parts] at h
  | node kind span rows =>
  cases m' with
  | placeholder kind' span' => cases hshell
  | node kind' span' rows' =>
    obtain ⟨rfl, rfl, hrows⟩ := Layout.node.inj hshell
    obtain ⟨before, after, hl, hl'⟩ := Row.exists_allEvents kind (depth + 1) hrows h h'
    refine ⟨.enter kind span.start (depth + 1) :: before, after ++ [.leave kind span.stop], ?_, ?_⟩
    · rw [events, hl]
      simp only [List.cons_append, List.append_assoc]
    · rw [events, hl']
      simp only [List.cons_append, List.append_assoc]

end Events

/-! ## Nodes with placeholders for their parts -/

/-- The placeholder for an expression or type. -/
def Expr.blank (x : Expr) : Expr := .bad x.span

/-- The placeholder for a statement. -/
def Stmt.blank (s : Stmt) : Stmt := .bad s.span

/-- The placeholder for a declaration. -/
def Decl.blank (d : Decl) : Decl := .bad d.layout.span

/-- The field with a placeholder for its type. -/
def Field.hollow (f : Field) : Field := { f with type := f.type.blank }

/-- The fields with placeholders for their types. -/
def FieldList.hollow (l : FieldList) : FieldList := { l with fields := l.fields.map Field.hollow }

/-- The signature with placeholders for the types in it. -/
def FuncType.hollow (t : FuncType) : FuncType :=
  { t with params := t.params.hollow, results? := t.results?.map FieldList.hollow }

/-- The call with placeholders for the function and its arguments. -/
def Call.hollow (c : Call) : Call := { c with fn := c.fn.blank, args := c.args.map Expr.blank }

/-- The block with placeholders for its statements. -/
def Block.hollow (b : Block) : Block := { b with stmts := b.stmts.map Stmt.blank }

/-- The entry of a declaration with placeholders for its types and values. -/
def Spec.hollow : Spec → Spec
  | .importPath name? path => .importPath name? path
  | .values names nameCommas type? assign? exprs valueCommas =>
    .values names nameCommas (type?.map Expr.blank) assign? (exprs.map Expr.blank) valueCommas
  | .typeName name assign? type => .typeName name assign? type.blank

/-- The declaration with placeholders for the types and values in it. -/
def GenDecl.hollow (d : GenDecl) : GenDecl := { d with specs := d.specs.map Spec.hollow }

/-- The function with placeholders for the types of its signature and the statements of its body. -/
def FuncDecl.hollow (d : FuncDecl) : FuncDecl :=
  { d with
    receiver? := d.receiver?.map FieldList.hollow
    type := d.type.hollow
    body? := d.body?.map Block.hollow }

/-- The expression with placeholders for the expressions and statements in it. -/
def Expr.hollow : Expr → Expr
  | .bad span => .bad span
  | .ident name => .ident name
  | .basicLit literal => .basicLit literal
  | .compositeLit type? lbrace elements commas rbrace =>
    .compositeLit (type?.map blank) lbrace (elements.map blank) commas rbrace
  | .keyValue key colon value => .keyValue key.blank colon value.blank
  | .paren lparen inner rparen => .paren lparen inner.blank rparen
  | .selector base period name => .selector base.blank period name
  | .index base lbrack place rbrack => .index base.blank lbrack place.blank rbrack
  | .slice base lbrack low? colon high? secondColon? max? rbrack =>
    .slice base.blank lbrack (low?.map blank) colon (high?.map blank) secondColon?
      (max?.map blank) rbrack
  | .typeAssert base period lparen type? typeKeyword? rparen =>
    .typeAssert base.blank period lparen (type?.map blank) typeKeyword? rparen
  | .star place operand => .star place operand.blank
  | .unary opPlace op operand => .unary opPlace op operand.blank
  | .binary left opPlace op right => .binary left.blank opPlace op right.blank
  | .call c => .call c.hollow
  | .funcLit type body => .funcLit type.hollow body.hollow
  | .arrayType lbrack length? rbrack element =>
    .arrayType lbrack (length?.map blank) rbrack element.blank
  | .mapType map lbrack key rbrack value => .mapType map lbrack key.blank rbrack value.blank
  | .structType struct fields => .structType struct fields.hollow
  | .funcType type => .funcType type.hollow
  | .interfaceType interface methods => .interfaceType interface methods.hollow
  | .chanType chan arrow? dir value => .chanType chan arrow? dir value.blank
  | .ellipsis dots element? => .ellipsis dots (element?.map blank)

/-- The statement with placeholders for the expressions and statements in it. -/
def Stmt.hollow : Stmt → Stmt
  | .bad span => .bad span
  | .empty semicolon implicit => .empty semicolon implicit
  | .labeled label colon stmt => .labeled label colon stmt.blank
  | .decl d => .decl d.hollow
  | .expr x => .expr x.blank
  | .send channel arrow value => .send channel.blank arrow value.blank
  | .assign left leftCommas opPlace op right rightCommas =>
    .assign (left.map Expr.blank) leftCommas opPlace op (right.map Expr.blank) rightCommas
  | .incDec operand opPlace op => .incDec operand.blank opPlace op
  | .returnStmt place results commas => .returnStmt place (results.map Expr.blank) commas
  | .branch place keyword label? => .branch place keyword label?
  | .block b => .block b.hollow
  | .ifStmt place init? semicolon? cond body elsePlace? else? =>
    .ifStmt place (init?.map blank) semicolon? cond.blank body.hollow elsePlace?
      (else?.map blank)
  | .forStmt place init? initSemicolon? cond? condSemicolon? post? body =>
    .forStmt place (init?.map blank) initSemicolon? (cond?.map Expr.blank) condSemicolon?
      (post?.map blank) body.hollow
  | .rangeStmt place key? comma? value? opPlace? op? range operand body =>
    .rangeStmt place (key?.map Expr.blank) comma? (value?.map Expr.blank) opPlace? op? range
      operand.blank body.hollow
  | .switchStmt place init? semicolon? tag? body =>
    .switchStmt place (init?.map blank) semicolon? (tag?.map Expr.blank) body.hollow
  | .caseClause place keyword exprs commas colon body =>
    .caseClause place keyword (exprs.map Expr.blank) commas colon (body.map blank)
  | .typeSwitch place init? semicolon? guard body =>
    .typeSwitch place (init?.map blank) semicolon? guard.blank body.hollow
  | .selectStmt place body => .selectStmt place body.hollow
  | .commClause place keyword comm? colon body =>
    .commClause place keyword (comm?.map blank) colon (body.map blank)
  | .goStmt place call => .goStmt place call.hollow
  | .deferStmt place call => .deferStmt place call.hollow

/-- The declaration with placeholders for the expressions and statements in it. -/
def Decl.hollow : Decl → Decl
  | .bad span => .bad span
  | .gen decl => .gen decl.hollow
  | .func decl => .func decl.hollow

/-- The file with placeholders for its declarations. -/
def File.hollow (file : File) : File := { file with decls := file.decls.map Decl.blank }

/-- The node with placeholders for the expressions, statements and declarations in it: what it has
of its own, which parts there are, and the bytes that they cover. -/
def Node.hollow : Node → Node
  | .file f => .file f.hollow
  | .decl d => .decl d.hollow
  | .spec s => .spec s.hollow
  | .stmt s => .stmt s.hollow
  | .expr e => .expr e.hollow
  | .fieldList l => .fieldList l.hollow
  | .field f => .field f.hollow

/-! ## The layout of a node without the insides of its parts -/

theorem startOfFirst_eq_span (layouts : List Layout) (default : Offset) :
    startOfFirst layouts default =
      ((layouts.map Layout.span).head?.map Span.start).getD default := by
  cases layouts <;> rfl

theorem stopOfLast_eq_span (layouts : List Layout) (default : Offset) :
    stopOfLast layouts default =
      ((layouts.map Layout.span).getLast?.map Span.stop).getD default := by
  rw [stopOfLast, List.getLast?_map, Option.map_map]
  rfl

theorem stopOf_eq_span (layout? : Option Layout) (default : Offset) :
    stopOf layout? default = ((layout?.map Layout.span).map Span.stop).getD default := by
  rw [stopOf, Option.map_map]
  rfl

@[simp]
theorem Expr.span_blank (x : Expr) : x.blank.layout.span = x.layout.span := rfl

@[simp]
theorem Stmt.span_blank (s : Stmt) : s.blank.layout.span = s.layout.span := rfl

@[simp]
theorem Decl.span_blank (d : Decl) : d.blank.layout.span = d.layout.span := rfl

section Shells

-- a shell shows of a part only its span
attribute [local simp] Layout.shell Row.shell Layout.blank Layout.start Layout.stop
  startOfFirst_eq_span stopOfLast_eq_span stopOf_eq_span

theorem Field.shell_hollow (f : Field) : f.hollow.layout.shell = f.layout.shell := by
  cases f
  simp [hollow, layout]

@[simp]
theorem Field.span_hollow (f : Field) : f.hollow.layout.span = f.layout.span :=
  Layout.span_eq_of_shell f.shell_hollow

theorem FieldList.shell_hollow (l : FieldList) : l.hollow.layout.shell = l.layout.shell := by
  cases l
  simp [hollow, layout, Function.comp_def]

@[simp]
theorem FieldList.span_hollow (l : FieldList) : l.hollow.layout.span = l.layout.span :=
  Layout.span_eq_of_shell l.shell_hollow

theorem FuncType.shell_hollow (t : FuncType) : t.hollow.layout.shell = t.layout.shell := by
  cases t
  simp [hollow, layout, Function.comp_def]

@[simp]
theorem FuncType.span_hollow (t : FuncType) : t.hollow.layout.span = t.layout.span :=
  Layout.span_eq_of_shell t.shell_hollow

theorem Call.shell_hollow (c : Call) : c.hollow.layout.shell = c.layout.shell := by
  cases c
  simp [hollow, layout, Function.comp_def]

@[simp]
theorem Call.span_hollow (c : Call) : c.hollow.layout.span = c.layout.span :=
  Layout.span_eq_of_shell c.shell_hollow

theorem Block.shell_hollow (b : Block) : b.hollow.layout.shell = b.layout.shell := by
  cases b
  simp [hollow, layout, Function.comp_def]

@[simp]
theorem Block.span_hollow (b : Block) : b.hollow.layout.span = b.layout.span :=
  Layout.span_eq_of_shell b.shell_hollow

theorem Spec.shell_hollow (s : Spec) : s.hollow.layout.shell = s.layout.shell := by
  cases s <;> simp [hollow, layout, Function.comp_def]

@[simp]
theorem Spec.span_hollow (s : Spec) : s.hollow.layout.span = s.layout.span :=
  Layout.span_eq_of_shell s.shell_hollow

theorem GenDecl.shell_hollow (d : GenDecl) : d.hollow.layout.shell = d.layout.shell := by
  cases d
  simp [hollow, layout, Function.comp_def]

@[simp]
theorem GenDecl.span_hollow (d : GenDecl) : d.hollow.layout.span = d.layout.span :=
  Layout.span_eq_of_shell d.shell_hollow

theorem FuncDecl.shell_hollow (d : FuncDecl) : d.hollow.layout.shell = d.layout.shell := by
  cases d
  simp [hollow, layout, FuncType.hollow, Function.comp_def]

theorem Expr.shell_hollow (x : Expr) : x.hollow.layout.shell = x.layout.shell := by
  cases x with
  | call c => exact c.shell_hollow
  | funcType t => exact t.shell_hollow
  | _ => simp [hollow, layout, Function.comp_def]

theorem Stmt.shell_hollow (s : Stmt) : s.hollow.layout.shell = s.layout.shell := by
  cases s with
  | block b => exact b.shell_hollow
  | _ => simp [hollow, layout, Function.comp_def]

theorem File.shell_hollow (f : File) : f.hollow.layout.shell = f.layout.shell := by
  simp [hollow, layout, Function.comp_def]

end Shells

namespace Node

/-- **A construct asks its parts for their spans only**: the layout of a node without the insides of
its parts is that of the node with placeholders in it. -/
theorem shell_hollow (node : Node) : node.hollow.layout.shell = node.layout.shell := by
  cases node with
  | file f => exact f.shell_hollow
  | decl d =>
    cases d with
    | bad span => rfl
    | gen d => exact d.shell_hollow
    | func d => exact d.shell_hollow
  | spec s => exact s.shell_hollow
  | stmt s => exact s.shell_hollow
  | expr x => exact x.shell_hollow
  | fieldList l => exact l.shell_hollow
  | field f => exact f.shell_hollow

/-! ## Placeholders inside nodes -/

/-- The placeholder for a node, if it is an expression, a statement or a declaration. -/
def placeholder? : Node → Option Node
  | .decl d => some (.decl d.blank)
  | .stmt s => some (.stmt s.blank)
  | .expr x => some (.expr x.blank)
  | .file _ | .spec _ | .fieldList _ | .field _ => none

/-- A placeholder has one event, which refuses it, and the span of what it stands for. -/
theorem events_placeholder {x p : Node} (h : x.placeholder? = some p) (depth : Nat) :
    p.layout.events depth = [.refuse p.kind x.span.start] := by
  cases x <;> cases h <;> rfl

/-- `Blanked x p node node'` says that `node'` is `node` with `p` in the place of one `x` somewhere
in it. On the way down to that place the two agree in all they have of their own (`Node.hollow`) and
in all parts but the one that leads there. -/
inductive Blanked (x p : Node) : Node → Node → Prop
  | here : Blanked x p x p
  | part {node node' m m' : Node} {front back : List Node} (own : node.hollow = node'.hollow)
      (parts : node.parts = front ++ m :: back) (parts' : node'.parts = front ++ m' :: back)
      (inside : Blanked x p m m') : Blanked x p node node'

/-- **The events of a tree with a placeholder in it** are those of the tree, but for the events of
what the placeholder stands for. -/
theorem Blanked.exists_events {x p node node' : Node} (h : Blanked x p node node') (depth : Nat) :
    ∃ before after inner,
      node.layout.events depth = before ++ (x.layout.events inner ++ after) ∧
        node'.layout.events depth = before ++ (p.layout.events inner ++ after) := by
  induction h generalizing depth with
  | here => exact ⟨[], [], depth, by simp, by simp⟩
  | @part node node' m m' front back own hparts hparts' inside ih =>
    have hshell : node.layout.shell = node'.layout.shell := by
      rw [← shell_hollow, own, shell_hollow]
    have hlayout : node.layout.parts =
        front.map Node.layout ++ m.layout :: back.map Node.layout := by
      rw [parts_layout, hparts, List.map_append, List.map_cons]
    have hlayout' : node'.layout.parts =
        front.map Node.layout ++ m'.layout :: back.map Node.layout := by
      rw [parts_layout, hparts', List.map_append, List.map_cons]
    obtain ⟨before, after, hm, hm'⟩ := Layout.exists_events depth hshell hlayout hlayout'
    obtain ⟨before', after', inner, hx, hp⟩ := ih (depth + 1)
    refine ⟨before ++ before', after' ++ after, inner, ?_, ?_⟩
    · rw [hm, hx]
      simp only [List.append_assoc]
    · rw [hm', hp]
      simp only [List.append_assoc]

end Node

end GoTrace
