import GoTrace.Proofs.Grammar.Climbing
import GoTrace.Proofs.Grammar.Placed

/-!
# Operators are grouped by precedence

An expression is read as one chain of operands and operators, as long as there are operators, and its
tree is the only one of that chain that is grouped by precedence, and to the left (`precedence_of_expr`).
In the tree of a whole file it follows that nothing loose is part of something tight, whether it is
written as an operand of an operator, behind a sign, or in front of a selector.
-/

namespace GoTrace

namespace Parser

/-- From `st` to `st'` a chain is read to its end: all its operators join two operands, and none that
does is next. -/
structure ReadsWhole (operand : Parser Expr) (ctx : ParseContext) (first : Expr) (links : List Link)
    (st st' : ParseState) : Prop where
  chain : ReadsChain operand ctx first links st st'
  joins : ∀ l ∈ links, 0 < l.op.precedence
  ends : st'.nextPrecedence = 0

variable {operand : Parser Expr} {ctx : ParseContext} {ls : List Link} {st st' : ParseState}

/-- The operands of links are read by the parser for operands. -/
theorem ReadsLinks.operands {P : Expr → Prop} (hoperand : operand.Ensures P)
    (h : ReadsLinks operand ctx ls st st') : ∀ l ∈ ls, P l.operand := by
  induction h with
  | nil => exact List.forall_mem_nil _
  | cons _ hx _ ih => exact List.forall_mem_cons.2 ⟨hoperand hx, ih⟩

/-- A chain that is read to its end has exactly one grouped tree. -/
theorem ReadsWhole.existsUnique {first : Expr} (hoperand : operand.Ensures (·.isBinary = false))
    (h : ReadsWhole operand ctx first ls st st') : ∃! x : Expr, x.IsGrouping first ls := by
  obtain ⟨st₁, hfirst, hlinks⟩ := h.chain
  exact Expr.existsUnique_isGrouping (hoperand hfirst) (hlinks.operands hoperand)

end Parser

open GoTrace.Parser

/-- What the rule for an operand returns is no binary operation. -/
theorem ensures_operand_level (depth : Nat) :
    (Nested.level depth).operand.Ensures (·.isBinary = false) :=
  fun _ st _ _ hyields =>
    ((placing_level st.tokens depth).operand (List.suffix_refl st.tokens) hyields).2.2

/-- A grouped tree is read from a whole chain, and nothing else is. -/
theorem Grammar.readsGrouped_zero_iff {operand : Parser Expr} {ctx : ParseContext}
    {st st' : ParseState} {x : Expr} : ReadsGrouped operand 0 ctx st x st' ↔
      ∃ first links, ReadsWhole operand ctx first links st st' ∧ x.IsGrouping first links := by
  constructor
  · rintro ⟨hgrouped, htight, hnext, hreads⟩
    exact ⟨x.first, x.links, ⟨hreads, hgrouped.tightness_pos_iff.1 htight, Nat.le_zero.1 hnext⟩,
      hgrouped, rfl, rfl⟩
  · rintro ⟨_, _, ⟨hreads, hjoins, hends⟩, hgrouped, rfl, rfl⟩
    exact ⟨hgrouped, hgrouped.tightness_pos_iff.2 hjoins, Nat.le_of_eq hends, hreads⟩

/-- No expression in the tree of some tokens is part of one that holds together more tightly. -/
theorem climbs_of_parseTokens {ts : List Token} {file : File} (h : parseTokens ts = .ok file)
    {x : Expr} (hx : .expr x ∈ file.nodes) : x.Climbs := by
  obtain ⟨z, hoccurs⟩ := Node.exists_occurs_of_mem_preorder hx
  exact (placed_of_parseTokens h z _ hoccurs : x.Stands ts z).climbs

/-- **Operators are grouped by precedence, and to the left.** In the tree of a file nothing loose is
part of something tight. An expression returned at any depth is the grouped tree of a chain of operands
and operators that is read to its end, the only one of that chain, and is returned wherever the chain
can be read. A precedence climb from the loosest level on returns the same. -/
theorem precedence_of_expr :
    (∀ {ts file}, parseTokens ts = .ok file → ∀ x, .expr x ∈ file.nodes → x.Climbs) ∧
      ∀ {depth : Nat} {ctx : ParseContext} {st st' : ParseState},
        (∀ {x}, (Grammar.expr (.level depth)).Yields ctx st x st' ↔
          ∃ first links, ReadsWhole (Nested.level depth).operand ctx first links st st' ∧
            x.IsGrouping first links) ∧
        (∀ {first links}, ReadsWhole (Nested.level depth).operand ctx first links st st' →
          ∃! x : Expr, x.IsGrouping first links) ∧
        (∀ {x}, (Grammar.climb (Nested.level depth).operand 1).Yields ctx st x st' ↔
          (Grammar.expr (.level depth)).Yields ctx st x st') := by
  refine ⟨fun h x hx => climbs_of_parseTokens h hx, fun {depth} _ _ _ => ?_⟩
  have hoperand := ensures_operand_level depth
  refine ⟨fun {x} => ?_, fun h => h.existsUnique hoperand, ?_⟩
  · rw [← Grammar.readsGrouped_zero_iff]
    exact Grammar.yields_binary_iff (moving_level depth) hoperand (Nat.le_refl 5)
  · exact Grammar.yields_climb_iff_binary (moving_level depth) hoperand (Nat.le_refl 5)

/-- Three levels, two of them with an operator on either side of a tighter one. -/
def chainText : String := "a == b + c*d - e\n"

/-- The tree of `chainText` is the one of its chain, and so it is in a file. -/
theorem precedence_of_chainText : ∃ x st' first links,
    (Grammar.expr (.level 2)).Yields ⟨true⟩ ⟨tokens chainText, #[], .zero⟩ x st' ∧
    links.map (·.op) = [.eql, .add, .mul, .sub] ∧
    ReadsWhole (Nested.level 2).operand ⟨true⟩ first links ⟨tokens chainText, #[], .zero⟩ st' ∧
    x.IsGrouping first links ∧ (∃! y : Expr, y.IsGrouping first links) ∧
    (Grammar.climb (Nested.level 2).operand 1).Yields ⟨true⟩ ⟨tokens chainText, #[], .zero⟩ x st' ∧
    ∃ file, parse ("package p\n\nvar x = " ++ chainText) = .ok file ∧
      ∀ x, .expr x ∈ file.nodes → x.Climbs := by
  have hread : (((Grammar.expr (.level 2)).run ⟨true⟩).run ⟨tokens chainText, #[], .zero⟩).toOption.map
      (fun (x, _) => x.links.map (·.op)) = some [.eql, .add, .mul, .sub] := by decide +kernel
  have hparsed : (parse ("package p\n\nvar x = " ++ chainText)).toOption.isSome := by decide +kernel
  obtain ⟨⟨x, st'⟩, hresult, hlinks⟩ := Option.map_eq_some_iff.1 hread
  obtain ⟨file, hfile⟩ := Option.isSome_iff_exists.1 hparsed
  have h : (Grammar.expr (.level 2)).Yields ⟨true⟩ ⟨tokens chainText, #[], .zero⟩ x st' :=
    ok_of_toOption hresult
  obtain ⟨hyields, hunique, hclimb⟩ := precedence_of_expr.2
  obtain ⟨first, links, hwhole, hgrouping⟩ := hyields.1 h
  have hops : links.map (·.op) = [.eql, .add, .mul, .sub] := by
    rw [← hgrouping.links_eq]
    exact hlinks
  exact ⟨x, st', first, links, h, hops, hwhole, hgrouping, hunique hwhole, hclimb.2 h, file,
    ok_of_toOption hfile, precedence_of_expr.1 (ok_of_toOption hfile)⟩

end GoTrace
