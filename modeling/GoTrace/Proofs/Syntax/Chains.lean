import GoTrace.Syntax.Tree
import Mathlib.Logic.ExistsUnique

/-!
# Chains of operands and binary operators

A binary operation is written as a chain: an operand, and links of an operator and an operand behind
it. Its tree is grouped by precedence, and to the left among operators of one precedence, if in front
of each operator of the tree there is nothing that holds together less tightly, and behind it nothing
that holds together less or as tightly (`Expr.Grouped`).

A chain has exactly one such tree (`Expr.existsUnique_isGrouping`). There is at most one because its root
is the last of the operators that bind least tightly: two trees with different roots would each have
the root of the other on one of their sides. There is one because links can be put behind a tree one
by one, each down its right side as far as the operators there bind less tightly (`Expr.add`).
-/

namespace GoTrace

/-- A binary operator and the operand behind it. -/
structure Link where
  place : Offset
  op : Operator
  operand : Expr

namespace Expr

/-- Whether an expression is a binary operation. -/
def isBinary : Expr → Bool
  | binary _ _ _ _ => true
  | _ => false

/-- How tightly an expression holds together: as tightly as its operator, if it is a binary operation,
and more tightly than any other. -/
def tightness : Expr → Nat
  | binary _ _ op _ => op.precedence
  | _ => 6

/-- The operand that a chain begins with. -/
def first : Expr → Expr
  | binary left _ _ _ => left.first
  | x => x

/-- The links behind the first operand of a chain, in order. -/
def links : Expr → List Link
  | binary left place op right => left.links ++ ⟨place, op, right.first⟩ :: right.links
  | _ => []

/-- The tree of a chain is grouped by precedence, and to the left among operators of one precedence.
-/
def Grouped : Expr → Prop
  | binary left _ op right =>
    left.Grouped ∧ right.Grouped ∧ op.precedence ≤ left.tightness ∧ op.precedence < right.tightness
  | _ => True

/-- The expression is the grouped tree of a chain. -/
structure IsGrouping (x operand : Expr) (ls : List Link) : Prop where
  grouped : x.Grouped
  first_eq : x.first = operand
  links_eq : x.links = ls

/-- Puts a link behind a chain: behind the operand on the right of all operators on the right side
that bind less tightly. -/
def add (l : Link) : Expr → Expr
  | x@(binary left place op right) =>
    if op.precedence < l.op.precedence then binary left place op (right.add l)
    else binary x l.place l.op l.operand
  | x => binary x l.place l.op l.operand

/-! ## Operands -/

variable {x y operand : Expr} {l : Link}

/-- An expression is a binary operation, or a chain of a single operand. -/
theorem isBinary_or_eq (x : Expr) :
    (∃ left place op right, x = binary left place op right) ∨
      x.isBinary = false ∧ x.tightness = 6 ∧ x.first = x ∧ x.links = [] ∧ x.Grouped ∧
        ∀ l, x.add l = binary x l.place l.op l.operand := by
  cases x with
  | binary left place op right => exact .inl ⟨left, place, op, right, rfl⟩
  | _ => exact .inr ⟨rfl, rfl, rfl, rfl, trivial, fun _ => rfl⟩

/-- A chain of a single operand has no links. -/
theorem isBinary_iff_links : x.isBinary = false ↔ x.links = [] := by
  rcases x.isBinary_or_eq with ⟨_, _, _, _, rfl⟩ | ⟨hx, -, -, hlinks, -⟩
  · simp [isBinary, links]
  · simp [hx, hlinks]

theorem tightness_of_operand (h : x.isBinary = false) : x.tightness = 6 := by
  rcases x.isBinary_or_eq with ⟨_, _, _, _, rfl⟩ | ⟨-, htight, -⟩
  · cases h
  · exact htight

theorem first_of_operand (h : x.isBinary = false) : x.first = x := by
  rcases x.isBinary_or_eq with ⟨_, _, _, _, rfl⟩ | ⟨-, -, hfirst, -⟩
  · cases h
  · exact hfirst

theorem grouped_of_operand (h : x.isBinary = false) : x.Grouped := by
  rcases x.isBinary_or_eq with ⟨_, _, _, _, rfl⟩ | ⟨-, -, -, -, hgrouped, -⟩
  · cases h
  · exact hgrouped

/-! ## At most one tree -/

/-- No operator of a grouped tree binds less tightly than its root. -/
theorem Grouped.tightness_le (h : x.Grouped) : ∀ l ∈ x.links, x.tightness ≤ l.op.precedence := by
  fun_induction links x with
  | case1 left place op right ihl ihr =>
    obtain ⟨hleft, hright, hle, hlt⟩ := h
    refine List.forall_mem_append.2 ⟨fun l hl => ?_, List.forall_mem_cons.2 ⟨Nat.le_refl _, ?_⟩⟩
    · exact Nat.le_trans hle (ihl hleft l hl)
    · exact fun l hl => Nat.le_of_lt (Nat.lt_of_lt_of_le hlt (ihr hright l hl))
  | case2 => simp

/-- A grouped tree holds together at all if all its operators do. -/
theorem Grouped.tightness_pos_iff (h : x.Grouped) :
    0 < x.tightness ↔ ∀ l ∈ x.links, 0 < l.op.precedence := by
  refine ⟨fun hpos l hl => Nat.lt_of_lt_of_le hpos (h.tightness_le l hl), fun hlinks => ?_⟩
  rcases x.isBinary_or_eq with ⟨left, place, op, right, rfl⟩ | ⟨-, htight, -⟩
  · exact hlinks ⟨place, op, right.first⟩ (by simp [links])
  · rw [htight]
    exact Nat.succ_pos 5

/-- In grouped trees of one chain, the root of neither is on the right side of the other. -/
theorem Grouped.not_root_behind {left right left' right' : Expr} {place place' : Offset}
    {op op' : Operator} {between : List Link} (h : (binary left place op right).Grouped)
    (h' : (binary left' place' op' right').Grouped)
    (hleft : left'.links = left.links ++ ⟨place, op, right.first⟩ :: between)
    (hright : right.links = between ++ ⟨place', op', right'.first⟩ :: right'.links) : False := by
  obtain ⟨-, hgrouped, -, hlt⟩ := h
  obtain ⟨hgrouped', -, hle, -⟩ := h'
  have hop : op.precedence < op'.precedence :=
    Nat.lt_of_lt_of_le hlt (hgrouped.tightness_le ⟨place', op', right'.first⟩ (by simp [hright]))
  have hop' : op'.precedence ≤ op.precedence :=
    Nat.le_trans hle (hgrouped'.tightness_le ⟨place, op, right.first⟩ (by simp [hleft]))
  omega

/-- **A chain has at most one grouped tree.** -/
theorem Grouped.unique (hx : x.Grouped) (hy : y.Grouped) (hfirst : x.first = y.first)
    (hlinks : x.links = y.links) : x = y := by
  fun_induction links x generalizing y with
  | case1 left place op right ihl ihr =>
    rcases y.isBinary_or_eq with ⟨left', place', op', right', rfl⟩ | ⟨-, -, -, hnil, -⟩
    · -- the roots are at the same place of the chain
      obtain ⟨hl, hr⟩ : left.links = left'.links ∧
          (⟨place, op, right.first⟩ :: right.links : List Link) =
            ⟨place', op', right'.first⟩ :: right'.links := by
        rcases List.append_eq_append_iff.1 hlinks with ⟨e, hleft, hright⟩ | ⟨e, hleft, hright⟩
        · rcases e with _ | ⟨l, between⟩
          · exact ⟨by simpa using hleft.symm, hright⟩
          · obtain ⟨rfl, hrest⟩ := List.cons.inj hright
            exact (hx.not_root_behind hy hleft hrest).elim
        · rcases e with _ | ⟨l, between⟩
          · exact ⟨by simpa using hleft, hright.symm⟩
          · obtain ⟨rfl, hrest⟩ := List.cons.inj hright
            exact (hy.not_root_behind hx hleft hrest).elim
      obtain ⟨hlink, hlinks'⟩ := List.cons.inj hr
      obtain ⟨rfl, rfl, hfirst'⟩ := Link.mk.inj hlink
      rw [ihl hx.1 hy.1 hfirst hl, ihr hx.2.1 hy.2.1 hfirst' hlinks']
    · rw [hnil] at hlinks
      simp at hlinks
  | case2 x hx' =>
    have hoperand : y.isBinary = false := isBinary_iff_links.2 hlinks.symm
    rcases x.isBinary_or_eq with ⟨_, _, _, _, rfl⟩ | ⟨-, -, hfirst', -⟩
    · exact absurd rfl (hx' _ _ _ _)
    · rw [← hfirst', hfirst, first_of_operand hoperand]

/-! ## At least one tree -/

theorem first_add (x : Expr) : (x.add l).first = x.first := by
  fun_induction add l x with
  | case1 => rfl
  | case2 => rfl
  | case3 => rfl

/-- A link that is put behind a chain is the last one. -/
theorem links_add (hl : l.operand.isBinary = false) (x : Expr) :
    (x.add l).links = x.links ++ [l] := by
  have hlast : (⟨l.place, l.op, l.operand.first⟩ :: l.operand.links : List Link) = [l] := by
    rw [first_of_operand hl, isBinary_iff_links.1 hl]
  fun_induction add l x with
  | case1 left place op right hlt ih => simp [links, ih, first_add]
  | case2 left place op right hle => rw [links, hlast]
  | case3 x hx => rw [links, hlast]

/-- With a link behind it, a tree holds together as tightly as it did, or as the link does. -/
theorem tightness_add (h : x.Grouped) :
    (x.add l).tightness = min x.tightness l.op.precedence := by
  have := l.op.precedence_le
  fun_cases add l x with
  | case1 left place op right hlt => exact (Nat.min_eq_left (Nat.le_of_lt hlt)).symm
  | case2 left place op right hle => exact (Nat.min_eq_right (Nat.le_of_not_lt hle)).symm
  | case3 x hx =>
    rcases x.isBinary_or_eq with ⟨_, _, _, _, rfl⟩ | ⟨-, htight, -⟩
    · exact absurd rfl (hx _ _ _ _)
    · rw [htight]
      exact (Nat.min_eq_right (Nat.le_succ_of_le this)).symm

/-- A link can be put behind a grouped tree. -/
theorem Grouped.add (h : x.Grouped) (hl : l.operand.isBinary = false) : (x.add l).Grouped := by
  have htight := tightness_of_operand hl
  have := l.op.precedence_le
  fun_induction Expr.add l x with
  | case1 left place op right hlt ih =>
    obtain ⟨hleft, hright, hle, hlt'⟩ := h
    refine ⟨hleft, ih hright, hle, ?_⟩
    rw [tightness_add hright]
    omega
  | case2 left place op right hle =>
    exact ⟨h, grouped_of_operand hl, Nat.le_of_not_lt hle, by omega⟩
  | case3 x hx =>
    rcases x.isBinary_or_eq with ⟨_, _, _, _, rfl⟩ | ⟨-, htight', -⟩
    · exact absurd rfl (hx _ _ _ _)
    · exact ⟨h, grouped_of_operand hl, by omega, by omega⟩

/-- Links can be put behind a grouped tree one by one. -/
theorem Grouped.foldl {ls : List Link} (h : x.Grouped)
    (hls : ∀ l ∈ ls, l.operand.isBinary = false) :
    (ls.foldl (fun x l => x.add l) x).Grouped ∧
      (ls.foldl (fun x l => x.add l) x).first = x.first ∧
      (ls.foldl (fun x l => x.add l) x).links = x.links ++ ls := by
  induction ls generalizing x with
  | nil => exact ⟨h, rfl, (List.append_nil _).symm⟩
  | cons l ls ih =>
    obtain ⟨hl, hls⟩ := List.forall_mem_cons.1 hls
    obtain ⟨hgrouped, hfirst, hlinks⟩ := ih (h.add hl) hls
    refine ⟨hgrouped, hfirst.trans x.first_add, hlinks.trans ?_⟩
    rw [links_add hl, List.append_assoc, List.singleton_append]

/-- **A chain has exactly one grouped tree.** -/
theorem existsUnique_isGrouping {ls : List Link} (hoperand : operand.isBinary = false)
    (hls : ∀ l ∈ ls, l.operand.isBinary = false) : ∃! x : Expr, x.IsGrouping operand ls := by
  obtain ⟨hgrouped, hfirst, hlinks⟩ := (grouped_of_operand hoperand).foldl hls
  rw [first_of_operand hoperand] at hfirst
  rw [isBinary_iff_links.1 hoperand, List.nil_append] at hlinks
  refine ⟨_, ⟨hgrouped, hfirst, hlinks⟩, fun y ⟨hy, hfirst', hlinks'⟩ => ?_⟩
  exact hy.unique hgrouped (hfirst'.trans hfirst.symm) (hlinks'.trans hlinks.symm)

end Expr

end GoTrace
