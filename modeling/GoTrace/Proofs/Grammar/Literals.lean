import GoTrace.Proofs.Grammar.Placed
import GoTrace.Proofs.Grammar.Places

/-!
# Braces behind names

A brace behind a name, a selected name or an indexed expression opens a composite literal, unless that
stands in the header of a statement and there are no brackets around it in the header
(`literals_of_parse`). Which of the two holds is said by the zone where the name occurs, and what the
brace opens is seen from the tree: either a literal of that type begins there, or there is none in it.
-/

namespace GoTrace

/-- Of tokens that are apart, written ones that stop at one place are the same token. -/
theorem Apart.suffix_eq_of_stop {ts rest rest' : List Token} {t u : Token} (h : Apart ts)
    (ht : t :: rest <:+ ts) (hu : u :: rest' <:+ ts) (htw : t.kind.isWritten)
    (huw : u.kind.isWritten) (hstop : t.span.stop = u.span.stop) : rest = rest' := by
  -- of two suffixes the shorter one, if it is not the other, is behind the first token of it
  have hbehind : ∀ {t u : Token} {rest rest' : List Token}, u :: rest' <:+ ts → t.kind.isWritten →
      t.span.stop = u.span.stop → t :: rest <:+ u :: rest' → rest = rest' := by
    intro t u rest rest' hu htw hstop hsuffix
    rcases List.suffix_cons_iff.1 hsuffix with heq | hsuffix
    · exact (List.cons.inj heq).2
    · have hmem : t ∈ rest' := hsuffix.subset List.mem_cons_self
      have hle := List.rel_of_pairwise_cons (h.pairwise.sublist hu.sublist) hmem
      have hlt := (h.written t (hu.subset (List.mem_cons_of_mem u hmem)) htw).1
      rw [hstop] at hlt
      exact absurd (Nat.lt_of_lt_of_le hlt hle) (Nat.lt_irrefl _)
  rcases List.suffix_or_suffix_of_suffix ht hu with hsuffix | hsuffix
  · exact hbehind hu htw hstop hsuffix
  · exact (hbehind ht huw hstop.symm hsuffix).symm

/-- Which tokens stand behind an expression is settled by where its last token stops. -/
theorem Expr.EndsBefore.eq {ts rest rest' : List Token} {x : Expr} {t : Token} (hapart : Apart ts)
    (h : x.EndsBefore ts rest) (ht : t :: rest' <:+ ts) (hwritten : t.kind.isWritten)
    (hstop : t.span.stop = x.span.stop) : rest = rest' := by
  obtain ⟨u, hu, huwritten, hustop⟩ := h
  rw [hapart.advance_eq (hu.subset List.mem_cons_self) huwritten] at hustop
  exact hapart.suffix_eq_of_stop hu ht huwritten hwritten (hustop.symm.trans hstop.symm)

/-- **What a brace behind a name opens.** Every node of the tree of a text occurs in some zone. Where
literals are closed, which is in the headers of statements, but not between brackets or in bodies that
begin there, none has a name for its type. Where they are open, a brace directly behind a name that is
an operand opens a composite literal of that type. -/
theorem literals_of_parse {text : String} {file : File} (h : parse text = .ok file) :
    (∀ node, node ∈ file.nodes ↔ ∃ z, Node.Occurs .body (.file file) z node) ∧
      ∀ z x, Node.Occurs .body (.file file) z (.expr x) →
        (z.literals = false → x.isNamedLiteral = false) ∧
        (z.literals = true → z.role ≠ .other → x.isNamed →
          ∀ before last brace after, tokens text = before ++ last :: brace :: after →
            last.kind.isWritten → last.span.stop = x.span.stop → brace.kind = .operator .lbrace →
            ∃ z' elements commas rbrace, Node.Occurs .body (.file file) z'
              (.expr (.compositeLit (some x) brace.span.start elements commas rbrace))) := by
  have hplaced : (Node.file file).Placed (tokens text) .body := placed_of_parseTokens h
  refine ⟨fun node => ⟨Node.exists_occurs_of_mem_preorder, fun ⟨_, hz⟩ => hz.mem_preorder⟩, ?_⟩
  intro z x hoccurs
  have hstands : x.Stands (tokens text) z := hplaced z _ hoccurs
  refine ⟨hstands.closed, fun hopen hrole hnamed before last brace after htokens hwritten hstop
    hbrace => ?_⟩
  have hsuffix : last :: brace :: after <:+ tokens text := htokens ▸ List.suffix_append before _
  have hbehind : ∀ {rest}, x.EndsBefore (tokens text) rest → rest = brace :: after :=
    fun hends => hends.eq (apart_of_parse h) hsuffix hwritten hstop
  cases hz : z.role with
  | other => exact absurd hz hrole
  | operand =>
    -- what is no type has no brace behind it
    obtain ⟨rest, hends, hunbraced⟩ := hstands.unbraced hopen hz hnamed
    rw [hbehind hends] at hunbraced
    exact absurd (congrArg some hbrace) hunbraced
  | literalType =>
    obtain ⟨z', lbrace, elements, commas, rbrace, hliteral⟩ := hoccurs.exists_compositeLit nofun hz
    have hbraced : x.Braced (tokens text) lbrace :=
      (hplaced z' _ hliteral : Expr.Stands (tokens text) z' _).braced hnamed
    obtain ⟨t, rest, hends, -, rfl⟩ := hbraced
    obtain ⟨rfl, -⟩ := List.cons.inj (hbehind hends)
    exact ⟨z', elements, commas, rbrace, hliteral⟩

/-- A header with a literal between brackets, and with a name in front of the body. -/
def headerText : String := "package p\n\nfunc f() \x7b\n\tif g(T\x7b\x7d) == x \x7b\n\t\x7d\n\x7d\n"

/-- The name in front of the first brace of the condition and that in front of the body, in a file like
`headerText`. -/
def headerNames? (file : File) : Option (Ident × Ident) :=
  match file.decls with
  | [.func ⟨_, _, _, _, some ⟨_, [.ifStmt _ _ _ (.binary (.call ⟨_, _, [.compositeLit
      (some (.ident t)) _ _ _ _], _, _, _⟩) _ _ (.ident x)) _ _ _], _⟩⟩] => some (t, x)
  | _ => none

/-- What occurs in the condition of an `if`, which is all that there is in a function, occurs in the
file. -/
theorem occurs_of_cond {file : File} {func lbrace rbrace place : Offset}
    {receiver? : Option FieldList} {name : Ident} {type : FuncType} {init? else? : Option Stmt}
    {semicolon? elsePlace? : Option Offset} {cond : Expr} {body : Block}
    (hdecls : file.decls = [.func ⟨func, receiver?, name, type,
      some ⟨lbrace, [.ifStmt place init? semicolon? cond body elsePlace? else?], rbrace⟩⟩])
    {z : Zone} {node : Node} (h : Node.Occurs Zone.header.operand (.expr cond) z node) :
    Node.Occurs .body (.file file) z node := by
  have hcond : (Zone.header.operand, .expr cond) ∈ (Node.stmt
      (.ifStmt place init? semicolon? cond body elsePlace? else?)).partsIn .body := by
    simp [Node.partsIn, Stmt.partsIn]
  have hblock : ∀ b, (Zone.body, .stmt (.block b)) ∈
      (Node.decl (.func ⟨func, receiver?, name, type, some b⟩)).partsIn .body := by
    simp [Node.partsIn, Decl.partsIn]
  have hdecl : ∀ d ∈ file.decls, (Zone.body, .decl d) ∈ (Node.file file).partsIn .body :=
    fun d hd => List.mem_cons_of_mem _ (List.mem_map_of_mem hd)
  exact .part (hdecl _ (hdecls ▸ List.mem_cons_self))
    (.part (hblock _) (.part List.mem_cons_self (.part hcond h)))

/-- The first of the two names is the type of a literal between brackets, and the second an operand in
a header. -/
theorem occurs_of_headerNames? {file : File} {t x : Ident} (h : headerNames? file = some (t, x)) :
    Node.Occurs .body (.file file) ⟨true, .literalType⟩ (.expr (.ident t)) ∧
      Node.Occurs .body (.file file) ⟨false, .operand⟩ (.expr (.ident x)) := by
  unfold headerNames? at h
  split at h
  · rename_i hdecls
    obtain ⟨rfl, rfl⟩ := Prod.mk.inj (Option.some.inj h)
    constructor
    · exact occurs_of_cond hdecls (.part List.mem_cons_self
        (.part (List.mem_cons_of_mem _ List.mem_cons_self) (.part List.mem_cons_self .self)))
    · exact occurs_of_cond hdecls (.part (List.mem_cons_of_mem _ List.mem_cons_self) .self)
  · cases h

/-- In `headerText` the brace behind `T` opens a literal, and none has the name `x` for its type. -/
theorem literals_of_headerText : ∃ file t x, parse headerText = .ok file ∧ t.name = "T" ∧
    Node.Occurs .body (.file file) ⟨true, .literalType⟩ (.expr (.ident t)) ∧
    (∃ z' lbrace elements commas rbrace, Node.Occurs .body (.file file) z'
      (.expr (.compositeLit (some (.ident t)) lbrace elements commas rbrace))) ∧
    x.name = "x" ∧ Node.Occurs .body (.file file) ⟨false, .operand⟩ (.expr (.ident x)) ∧
    (Expr.ident x).isNamedLiteral = false := by
  have hkinds : (((tokens headerText).drop 11).take 2).map
      (fun t => (t.kind, t.span.start.toNat, t.span.stop.toNat)) =
        [(.ident "T", 28, 29), (.operator .lbrace, 29, 30)] := by decide +kernel
  obtain ⟨last, rest, hpair, hlast, hrest⟩ := List.map_eq_cons_iff.1 hkinds
  obtain ⟨brace, rest, rfl, hbrace, hnil⟩ := List.map_eq_cons_iff.1 hrest
  obtain rfl := List.map_eq_nil_iff.1 hnil
  have htokens : tokens headerText = (tokens headerText).take 11 ++
      last :: brace :: ((tokens headerText).drop 11).drop 2 := by
    change _ = _ ++ ([last, brace] ++ _)
    rw [← hpair, List.take_append_drop, List.take_append_drop]
  have hparsed : ((parse headerText).toOption.bind headerNames?).map
      (fun names => (names.1.name, names.1.place.toNat, names.2.name)) = some ("T", 28, "x") := by
    decide +kernel
  obtain ⟨names, hnames, heq⟩ := Option.map_eq_some_iff.1 hparsed
  obtain ⟨file, hfile, hnames⟩ := Option.bind_eq_some_iff.1 hnames
  obtain ⟨t, x⟩ := names
  obtain ⟨hname, hrest⟩ := Prod.mk.inj heq
  obtain ⟨hplace, hx⟩ := Prod.mk.inj hrest
  obtain ⟨ht, hfree⟩ := occurs_of_headerNames? hnames
  have h : parse headerText = .ok file := ok_of_toOption hfile
  have hstop : last.span.stop = (Expr.ident t).span.stop := by
    change _ = t.place.advance t.name.utf8ByteSize
    ext
    rw [Offset.toNat_advance, hname, hplace, (Prod.mk.inj (Prod.mk.inj hlast).2).2]
    rfl
  have hwritten : last.kind.isWritten := by
    rw [(Prod.mk.inj hlast).1]
    rfl
  have hrole : (⟨true, .literalType⟩ : Zone).role ≠ .other := Role.noConfusion
  obtain ⟨z', elements, commas, rbrace, hliteral⟩ := ((literals_of_parse h).2 _ _ ht).2 rfl hrole rfl
    _ _ _ _ htokens hwritten hstop (Prod.mk.inj hbrace).1
  exact ⟨file, t, x, h, hname, ht, ⟨z', _, elements, commas, rbrace, hliteral⟩, hx, hfree,
    ((literals_of_parse h).2 _ _ hfree).1 rfl⟩

end GoTrace
