import GoTrace.Proofs.Grammar.Placed
import GoTrace.Proofs.Grammar.Siblings
import GoTrace.Proofs.Grammar.Spans

/-!
# Clauses of a selection, and the order of declarations

Two places of a tree take more than what is meant to stand there. Behind the `case` of a selection any
simple statement is read, though only a send, a receive or an assignment of what is received has a
meaning there (`Stmt.communicates`). And declarations are read in any order, though imports are meant to
come first (`File.ImportsFirst`). When a tree is as it is meant to be is said by `clauses_of_parse`.

That the order of declarations is free follows from their independence: lines of declarations that are
read alone are read among others (`Grammar.collected_append`), so they may be put together in any way
(`Grammar.exists_file_of_groups`).
-/

namespace GoTrace

/-- Whether an expression is a receive, possibly between round brackets. -/
def Expr.isReceive : Expr → Bool
  | .paren _ inner _ => inner.isReceive
  | .unary _ op _ => op = .arrow
  | _ => false

/-- Whether a statement sends, receives, or assigns what it receives. -/
def Stmt.communicates : Stmt → Bool
  | .send _ _ _ => true
  | .expr x => x.isReceive
  | .assign _ _ _ _ right _ => right.length = 1 ∧ ∀ x ∈ right, x.isReceive
  | _ => false

/-- Whether a simple statement does none of these: it counts up or down, or what it evaluates or assigns
is not received. -/
def Stmt.isStray : Stmt → Bool
  | .incDec _ _ _ => true
  | .expr x => !x.isReceive
  | .assign _ _ _ _ right _ => right.length ≠ 1 ∨ ∃ x ∈ right, !x.isReceive
  | _ => false

/-- Whether a declaration imports. -/
def Decl.isImport : Decl → Bool
  | .gen decl => decl.keyword = .importKw
  | _ => false

/-- In front of an import there are only imports. -/
def File.ImportsFirst (file : File) : Prop :=
  file.decls.Pairwise fun d e => e.isImport → d.isImport

/-! ## Declarations in any order -/

/-- Lines of declarations that are a file behind a package clause. -/
def DeclLines (clause ts : List Token) (decls : List Decl) : Prop :=
  Lines ts ∧ ∃ e file, e.kind = .eof ∧ parseTokens (clause ++ ts ++ [e]) = .ok file ∧
    file.decls = decls

namespace Grammar

open GoTrace.Parser

variable {clause : List Token} {name : String} {groups : List (List Token × List Decl)}

/-- Lines of declarations are read behind each other if they are read alone. -/
theorem collected_groups
    (hclause : clause.map (·.kind) = [.keyword .packageKw, .ident name, .semicolon true])
    (h : ∀ g ∈ groups, DeclLines clause g.1 g.2) {last : Token} (hlast : last.kind = .eof)
    {st : ParseState} (htokens : st.tokens = groups.flatMap Prod.fst ++ [last]) :
    ∃ st', Collected atEnd (declItem (.level maxNesting)) ⟨true⟩ (groups.flatMap Prod.snd) st st' ∧
      st'.tokens = [last] := by
  induction groups generalizing st with
  | nil =>
    refine ⟨st, .done ((yields_of_peeks peeks_atEnd).2 ⟨?_, rfl⟩), htokens⟩
    rw [ParseState.nextKind?, htokens]
    simp [hlast]
  | cons g groups ih =>
    obtain ⟨hg, hgroups⟩ := List.forall_mem_cons.1 h
    obtain ⟨hlines, e, file, he, hparse, hdecls⟩ := hg
    rw [List.append_assoc] at hparse
    obtain ⟨st₁, st₂, htokens₁, hyields⟩ := exists_decls_of_parseTokens hclause hparse
    rw [List.flatMap_cons, List.append_assoc] at htokens
    obtain ⟨st₃, htokens₃, hrest⟩ := collected_append (moving_level maxNesting)
      (tight_level maxNesting) (collected_of_collect hyields) hlines he htokens₁ htokens
    obtain ⟨st', hcollected, htokens'⟩ := ih hgroups htokens₃
    refine ⟨st', ?_, htokens'⟩
    rw [List.flatMap_cons, ← hdecls]
    exact hrest _ _ hcollected

/-- **Declarations may come in any order.** Lines of declarations that are accepted alone are accepted
behind each other, however they are arranged. -/
theorem exists_file_of_groups
    (hclause : clause.map (·.kind) = [.keyword .packageKw, .ident name, .semicolon true])
    (h : ∀ g ∈ groups, DeclLines clause g.1 g.2) {last : Token} (hlast : last.kind = .eof) :
    ∃ file, parseTokens (clause ++ groups.flatMap Prod.fst ++ [last]) = .ok file ∧
      file.decls = groups.flatMap Prod.snd := by
  have hstart : (ParseState.mk (clause ++ groups.flatMap Prod.fst ++ [last]) #[] .zero).tokens =
      clause ++ (groups.flatMap Prod.fst ++ [last]) := List.append_assoc ..
  obtain ⟨package, x, st, htokens, hbehind⟩ :=
    exists_behind_clause (.level maxNesting) ⟨true⟩ hclause hstart
  obtain ⟨st₁, hcollected, htokens₁⟩ := collected_groups hclause h hlast htokens
  have hdecls := yields_collect_of_collected local_atEnd
    ((moves_declLine (moving_level maxNesting)).bind fun _ => local_pure) hcollected
  obtain ⟨st₂, htakes, -⟩ := exists_takes htokens₁ (by simp [hlast])
  exact ⟨_, parseTokens_eq_ok_iff.2 ⟨st₂, yields_file_iff.2
    ⟨package, x, _, last, st₁, hbehind.2 ⟨_, hdecls, rfl⟩, htakes, rfl⟩⟩, rfl⟩

end Grammar

/-! ## Clauses -/

/-- A clause with the keyword `case` has a simple statement in front of its colon, and one with
`default` has none. -/
theorem comm_of_parseTokens {ts : List Token} {file : File} (h : parseTokens ts = .ok file)
    {place colon : Offset} {keyword : Keyword} {comm? : Option Stmt} {body : List Stmt}
    (hnode : .stmt (.commClause place keyword comm? colon body) ∈ file.nodes) :
    (keyword = .caseKw ∧ ∃ comm, comm? = some comm ∧ comm.isSimple) ∨
      (keyword = .defaultKw ∧ comm? = none) := by
  obtain ⟨z, hoccurs⟩ := Node.exists_occurs_of_mem_preorder hnode
  have hselects : Stmt.Selects (.commClause place keyword comm? colon body) :=
    placed_of_parseTokens h z _ hoccurs
  have hformed : Stmt.Formed (.commClause place keyword comm? colon body) :=
    (formed_of_parseTokens h _ hnode).1
  refine hselects.imp_left fun ⟨hkeyword, hsome⟩ => ⟨hkeyword, ?_⟩
  obtain ⟨comm, rfl⟩ := Option.isSome_iff_exists.1 hsome
  exact ⟨comm, rfl, hformed.1 comm rfl⟩

/-- What stands in front of the colon of a clause communicates unless it is stray. -/
theorem Stmt.communicates_iff {s : Stmt} (h : s.isSimple) : s.communicates ↔ ¬s.isStray := by
  cases s with
  | expr x => simp [communicates, isStray]
  | send => simp [communicates, isStray]
  | assign => simp [communicates, isStray]
  | incDec => simp [communicates, isStray]
  | _ => cases h

/-! ## The order of declarations -/

/-- The declarations of a file are in the order of the text. -/
theorem decls_ordered_of_parse {text : String} {file : File} (h : parse text = .ok file) :
    file.decls.Pairwise fun d e => (Node.decl d).span.start < (Node.decl e).span.start ∧
      (Node.decl d).span.stop ≤ (Node.decl e).span.start :=
  List.pairwise_map.1 (List.pairwise_cons.1 (File.arranged_of_parse h).parts).2

/-- Imports come first in a file if they do in the text. -/
theorem importsFirst_iff_of_parse {text : String} {file : File} (h : parse text = .ok file) :
    file.ImportsFirst ↔ ∀ d ∈ file.decls, ∀ e ∈ file.decls, d.isImport → ¬e.isImport →
      (Node.decl d).span.stop ≤ (Node.decl e).span.start := by
  have hordered := decls_ordered_of_parse h
  constructor
  · intro hfirst d hd e he himport hnot
    obtain ⟨i, hi, rfl⟩ := List.getElem_of_mem hd
    obtain ⟨j, hj, rfl⟩ := List.getElem_of_mem he
    -- of two declarations one is in front of the other, in the file as in the text
    rcases Nat.lt_trichotomy i j with hlt | rfl | hlt
    · exact (List.pairwise_iff_getElem.1 hordered i j hi hj hlt).2
    · exact absurd himport hnot
    · exact absurd (List.pairwise_iff_getElem.1 hfirst j i hj hi hlt himport) hnot
  · intro hbefore
    refine hordered.imp_of_mem fun {d e} hd he hlt himport => ?_
    by_cases hd' : d.isImport
    · exact hd'
    · have hmem : .decl e ∈ file.nodes :=
        Node.preorder_subset_of_mem_parts (List.mem_cons_of_mem _ (List.mem_map_of_mem he))
          (Node.mem_preorder_self _)
      have hle := (Node.spanned_of_parse h hmem nofun).arranged.le
      have hstop := Nat.le_trans hle (hbefore e he d hd himport hd')
      exact absurd hlt.1 (Nat.not_lt.2 hstop)

/-- **When clauses and declarations are as they are meant to be.** In the tree of a text, a clause with
`case` has a simple statement in front of its colon, which communicates unless it is stray, and a clause
with `default` has none; and imports come first exactly if each of them ends in the text in front of
where any other declaration starts. Nothing forces that order: lines of declarations that are accepted
alone are accepted however they are arranged. -/
theorem clauses_of_parse {text : String} {file : File} (h : parse text = .ok file) :
    (∀ place keyword comm? colon body,
      .stmt (.commClause place keyword comm? colon body) ∈ file.nodes →
        (keyword = .caseKw ∧ ∃ comm, comm? = some comm ∧ comm.isSimple ∧
            (comm.communicates ↔ ¬comm.isStray)) ∨
          (keyword = .defaultKw ∧ comm? = none)) ∧
      (file.ImportsFirst ↔ ∀ d ∈ file.decls, ∀ e ∈ file.decls, d.isImport → ¬e.isImport →
        (Node.decl d).span.stop ≤ (Node.decl e).span.start) ∧
      ∀ {clause : List Token} {name : String} {groups : List (List Token × List Decl)}
        {last : Token},
        clause.map (·.kind) = [.keyword .packageKw, .ident name, .semicolon true] →
        (∀ g ∈ groups, DeclLines clause g.1 g.2) → last.kind = .eof →
        ∃ file, parseTokens (clause ++ groups.flatMap Prod.fst ++ [last]) = .ok file ∧
          file.decls = groups.flatMap Prod.snd := by
  refine ⟨fun _ _ _ _ _ hnode => ?_, importsFirst_iff_of_parse h, ?_⟩
  · refine (comm_of_parseTokens h hnode).imp_left fun ⟨hkeyword, comm, hcomm, hsimple⟩ => ?_
    exact ⟨hkeyword, comm, hcomm, hsimple, Stmt.communicates_iff hsimple⟩
  · exact fun hclause hgroups hlast => Grammar.exists_file_of_groups hclause hgroups hlast

/-- A selection with something else than a send or a receive in it, and an import behind the function.
-/
def selectText : String :=
  "package p\n\nfunc f() \x7b\n\tselect \x7b\n\tcase x++:\n\t\x7d\n\x7d\n\nimport \"fmt\"\n"

/-- The tokens of `import "fmt"`. -/
def importTokens : List Token :=
  [.keyword .importKw, .literal .string "\"fmt\"", .semicolon true].map TokenKind.token

/-- Lines of declarations that are accepted are lines of some declarations. -/
theorem exists_declLines {clause ts : List Token} (hlines : Lines ts)
    (h : (parseTokens (clause ++ ts ++ [TokenKind.eof.token])).toOption.isSome) :
    ∃ decls, DeclLines clause ts decls := by
  obtain ⟨file, hfile⟩ := Option.isSome_iff_exists.1 h
  exact ⟨file.decls, hlines, TokenKind.eof.token, file, rfl, ok_of_toOption hfile, rfl⟩

/-- The clause in `selectText` and its declarations are as is said of those of any text, and a variable
is accepted in front of an import. -/
theorem clauses_of_selectText : ∃ file, parse selectText = .ok file ∧
    (∀ place keyword comm? colon body,
      .stmt (.commClause place keyword comm? colon body) ∈ file.nodes →
        (keyword = .caseKw ∧ ∃ comm, comm? = some comm ∧ comm.isSimple ∧
            (comm.communicates ↔ ¬comm.isStray)) ∨
          (keyword = .defaultKw ∧ comm? = none)) ∧
    (file.ImportsFirst ↔ ∀ d ∈ file.decls, ∀ e ∈ file.decls, d.isImport → ¬e.isImport →
      (Node.decl d).span.stop ≤ (Node.decl e).span.start) ∧
    ∃ vars imports both, DeclLines clauseTokens varTokens vars ∧
      DeclLines clauseTokens importTokens imports ∧
      parseTokens (clauseTokens ++ (varTokens ++ importTokens) ++ [TokenKind.eof.token]) =
        .ok both ∧
      both.decls = vars ++ imports := by
  have hparsed : (parse selectText).toOption.isSome := by decide +kernel
  obtain ⟨file, hfile⟩ := Option.isSome_iff_exists.1 hparsed
  have h := ok_of_toOption hfile
  obtain ⟨hclauses, himportsFirst, hgroups⟩ := clauses_of_parse h
  refine ⟨file, h, hclauses, himportsFirst, ?_⟩
  obtain ⟨vars, hvars⟩ : ∃ vars, DeclLines clauseTokens varTokens vars :=
    exists_declLines (by decide +kernel) (by decide +kernel)
  obtain ⟨imports, himports⟩ : ∃ imports, DeclLines clauseTokens importTokens imports :=
    exists_declLines (by decide +kernel) (by decide +kernel)
  have hlines : ∀ g ∈ [(varTokens, vars), (importTokens, imports)],
      DeclLines clauseTokens g.1 g.2 :=
    List.forall_mem_cons.2 ⟨hvars, List.forall_mem_cons.2 ⟨himports, List.forall_mem_nil _⟩⟩
  have hclause : clauseTokens.map (·.kind) =
    [.keyword .packageKw, .ident "p", .semicolon true] := rfl
  have heof : TokenKind.eof.token.kind = .eof := rfl
  obtain ⟨both, hboth, hdecls⟩ := hgroups hclause hlines heof
  refine ⟨vars, imports, both, hvars, himports, hboth, ?_⟩
  rw [hdecls, List.flatMap_cons, List.flatMap_singleton]

/-- The statement in the clause and the last declaration, in a file like `selectText`. -/
def strayParts? (file : File) : Option (Stmt × Decl) :=
  match file.decls with
  | [.func ⟨_, _, _, _, some ⟨_, [.selectStmt _ ⟨_, [.commClause _ _ (some comm) _ _], _⟩], _⟩⟩,
      d] => some (comm, d)
  | _ => none

/-- The statement stands in a clause, and the declaration behind a function. -/
theorem mem_of_strayParts? {file : File} {comm : Stmt} {d : Decl}
    (h : strayParts? file = some (comm, d)) :
    (∃ place keyword colon body,
      .stmt (.commClause place keyword (some comm) colon body) ∈ file.nodes) ∧
      ∃ decl, file.decls = [.func decl, d] := by
  unfold strayParts? at h
  split at h
  · rename_i place keyword comm colon body rbrace' rbrace d hdecls
    obtain ⟨rfl, rfl⟩ := Prod.mk.inj (Option.some.inj h)
    refine ⟨⟨place, keyword, colon, body, ?_⟩, _, hdecls⟩
    have hfunc : ∀ d ∈ file.decls, .decl d ∈ (Node.file file).parts :=
      fun d hd => List.mem_cons_of_mem _ (List.mem_map_of_mem hd)
    refine Node.preorder_subset_of_mem_parts (hfunc _ (hdecls ▸ List.mem_cons_self)) ?_
    refine Node.preorder_subset_of_mem_parts (Decl.mem_parts_of_body? rfl) ?_
    refine Node.preorder_subset_of_mem_parts List.mem_cons_self ?_
    refine Node.preorder_subset_of_mem_parts List.mem_cons_self ?_
    exact Node.preorder_subset_of_mem_parts List.mem_cons_self (Node.mem_preorder_self _)
  · cases h

/-- Not every clause has a send or a receive, nor does every file begin with its imports: `selectText`
has an increment in a clause, and its import stands behind a function. -/
theorem not_forall_communicates_importsFirst :
    (¬∀ text file, parse text = .ok file → ∀ place keyword comm colon body,
      .stmt (.commClause place keyword (some comm) colon body) ∈ file.nodes →
        comm.communicates) ∧
      ¬∀ text file, parse text = .ok file → file.ImportsFirst := by
  have hparsed : ((parse selectText).toOption.bind strayParts?).map
      (fun parts => (parts.1.communicates, parts.2.isImport)) = some (false, true) := by
    decide +kernel
  obtain ⟨parts, hparts, heq⟩ := Option.map_eq_some_iff.1 hparsed
  obtain ⟨file, hfile, hparts⟩ := Option.bind_eq_some_iff.1 hparts
  obtain ⟨comm, d⟩ := parts
  obtain ⟨hsilent, himport⟩ := Prod.mk.inj heq
  obtain ⟨⟨place, keyword, colon, body, hnode⟩, decl, hdecls⟩ := mem_of_strayParts? hparts
  have h : parse selectText = .ok file := ok_of_toOption hfile
  constructor
  · intro hall
    have hcommunicates := hall _ _ h place keyword comm colon body hnode
    exact Bool.false_ne_true (hsilent.symm.trans hcommunicates)
  · intro hall
    have hfirst := hall _ _ h
    rw [File.ImportsFirst, hdecls] at hfirst
    have hfunc := List.rel_of_pairwise_cons hfirst List.mem_cons_self himport
    exact Bool.false_ne_true hfunc

end GoTrace
