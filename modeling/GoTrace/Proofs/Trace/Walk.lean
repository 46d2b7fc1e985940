import Mathlib.Data.List.TakeWhile
import GoTrace.Proofs.Token.Spelling
import GoTrace.Proofs.Trace.Steps

/-!
# Steps that succeed

A cursor is *ready* for some words if these stand in the text behind its place, with the comments
that are pending. Such a cursor can be moved forward to the first of the words and on over it, and
to the end of the text if no words are left: every gap on the way is made of whitespace and of
comments that stand where they say.
-/

namespace GoTrace

open String (utf8Len)

variable {table : LineTable}

/-! ## Gaps -/

/-- An offset at which the text is cut resolves. -/
theorem exists_resolve {place : Offset} {front rest : List Char}
    (htext : table.text.toList = front ++ rest) (hplace : utf8Len front = place.toNat) :
    ∃ p, table.resolve place = .ok p := by
  obtain ⟨p, hp⟩ := Option.isSome_iff_exists.1
    (LineTable.position?_isSome_iff.2 ⟨front, rest, htext, hplace⟩)
  exact ⟨p, LineTable.resolve_eq_ok_iff.2 hp⟩

/-- Moving on by no more than the text is long moves on by just that. -/
theorem toNat_advance_of_le (place : Offset) (n : Nat) (h : place.toNat + n ≤ maxOffset) :
    (place.advance n).toNat = place.toNat + n := Nat.min_eq_left h

/-- The markers of whitespace can be made. -/
theorem exists_markers (owned : Bool) {start : Offset} {front w rest : List Char}
    (hmax : utf8Len (front ++ w) ≤ maxOffset) (htext : table.text.toList = front ++ w ++ rest)
    (hstart : utf8Len front = start.toNat) (hw : ∀ c ∈ w, Gap.isSpace c) :
    ∃ gs, Gap.markers table start w owned = .ok gs := by
  by_cases hmem : '\n' ∈ w
  · obtain ⟨v, rest', rfl, hv⟩ := List.eq_append_cons_of_mem hmem
    rw [Gap.markers, (span_newline hv).1, (span_newline hv).2]
    have hv' : utf8Len v = v.length := utf8Len_of_isSpace fun d hd => hw d (by simp [hd])
    rw [String.utf8Len_append, utf8Len_newline, hv', hstart] at hmax
    have hfirst := toNat_advance_of_le start v.length (by omega)
    have hsecond := toNat_advance_of_le (start.advance v.length) 1 (by omega)
    obtain ⟨p, hp⟩ : ∃ p, table.resolve (start.advance v.length) = .ok p := by
      refine exists_resolve (show _ = front ++ v ++ ('\n' :: rest' ++ rest) by simp [htext]) ?_
      rw [hfirst, String.utf8Len_append, hv', hstart]
    obtain ⟨p', hp'⟩ : ∃ p, table.resolve ((start.advance v.length).advance 1) = .ok p := by
      refine exists_resolve (show _ = front ++ v ++ ['\n'] ++ (rest' ++ rest) by simp [htext]) ?_
      rw [hsecond, hfirst, String.utf8Len_append, String.utf8Len_append, hv', hstart]
      rfl
    simp only [hp, hp']
    cases owned <;> cases rest'.contains '\n' <;> exact ⟨_, rfl⟩
  · rw [Gap.markers, dropWhile_of_not_mem_newline hmem]
    exact ⟨[], rfl⟩

/-- The fragments of whitespace can be made. -/
theorem exists_whitespace (owned : Bool) {start stop : Offset} {front w rest : List Char}
    (htext : table.text.toList = front ++ w ++ rest) (hstart : utf8Len front = start.toNat)
    (hstop : utf8Len (front ++ w) = stop.toNat) (hw : ∀ c ∈ w, Gap.isSpace c) :
    ∃ gs, Gap.whitespace table start stop owned = .ok gs := by
  rw [Gap.whitespace]
  split
  · exact ⟨[], rfl⟩
  have hslice : table.slice? ⟨start, stop⟩ = some (String.ofList w) := by
    refine LineTable.slice?_eq_some_iff.2 ⟨front, rest, ?_, hstart, ?_⟩
    · rw [String.toList_ofList, htext]
    · rw [String.toList_ofList, ← String.utf8Len_append, hstop]
  have hblank : w.takeWhile Gap.isSpace = w := List.takeWhile_eq_self_iff.2 hw
  obtain ⟨gs, hgs⟩ := exists_markers owned (hstop ▸ stop.le_max) htext hstart hw
  refine ⟨gs, bind_eq_ok_iff.2 ⟨_, LineTable.textOf_eq_ok_iff.2 hslice, ?_⟩⟩
  rw [String.toList_ofList]
  dsimp only
  rw [hblank, if_neg (Nat.lt_irrefl _)]
  exact hgs

/-- The fragment of a comment can be made. -/
theorem exists_comment {stop : Offset} {c : Comment} {front rest : List Char}
    (htext : table.text.toList = front ++ c.text.toList ++ rest)
    (hstart : c.span.start.toNat = utf8Len front)
    (hstop : c.span.stop.toNat = utf8Len (front ++ c.text.toList)) (hle : c.span.stop ≤ stop) :
    ∃ f, Gap.comment table stop c = .ok f := by
  have hslice : table.slice? c.span = some c.text :=
    LineTable.slice?_eq_some_iff.2 ⟨front, rest, htext, hstart.symm, by
      rw [hstop, String.utf8Len_append]⟩
  obtain ⟨p, hp⟩ := exists_resolve (by rw [htext, List.append_assoc]) hstart.symm
  rw [Gap.comment, if_neg (show ¬stop < c.span.stop from Nat.not_lt.2 hle)]
  refine ⟨⟨.comment c.text, p⟩, bind_eq_ok_iff.2 ⟨_, LineTable.textOf_eq_ok_iff.2 hslice, ?_⟩⟩
  rw [if_pos rfl]
  exact bind_eq_ok_iff.2 ⟨p, hp, rfl⟩

/-- The next stop of a cursor: the first of the words, or the end of the text if there are none. -/
def NextStop (table : LineTable) (words : List (Offset × String)) (stop : Offset) : Prop :=
  match words with
  | [] => stop.toNat = table.size
  | word :: _ => word.1 = stop

variable {front : List Char} {pending : List Comment} {words : List (Offset × String)}
  {start stop : Offset}

/-- The next stop is not in front of the characters that the words stand behind. -/
theorem NextStop.le (hstop : NextStop table words stop)
    (h : Spells table.text.toList front pending words) : utf8Len front ≤ stop.toNat := by
  cases words with
  | nil =>
    obtain ⟨rest, htext⟩ := h.text_eq
    rw [show stop.toNat = table.size from hstop, LineTable.size, utf8ByteSize_eq, htext,
      String.utf8Len_append]
    exact Nat.le_add_right _ _
  | cons word words =>
    obtain rfl : word.1 = stop := hstop
    exact h.bounds.2 word List.mem_cons_self

/-- **The gap up to the next stop can be made into fragments**, and the words stand behind it. -/
theorem exists_scanFrom (owned : Bool)
    (h : Spells table.text.toList front pending words) (hstart : utf8Len front = start.toNat)
    (hstop : NextStop table words stop) :
    ∃ fs left front', Gap.scanFrom table stop pending start owned = .ok (fs, left) ∧
      utf8Len front' = stop.toNat ∧ Spells table.text.toList front' left words := by
  induction h generalizing start owned with
  | @done front w htext hw =>
    have hend : utf8Len (front ++ w) = stop.toNat := by
      rw [show stop.toNat = table.size from hstop, LineTable.size, utf8ByteSize_eq, htext]
    obtain ⟨gs, hgs⟩ := exists_whitespace owned
      (show _ = front ++ w ++ [] by rw [List.append_nil, htext]) hstart hend hw
    refine ⟨gs, [], front ++ w, ?_, hend, .done (by rw [List.append_nil, htext]) (by simp)⟩
    rw [Gap.scanFrom]
    exact bind_eq_ok_iff.2 ⟨gs, hgs, rfl⟩
  | @comment front w rest c comments words htext hw hfirst hcstart hcstop next ih =>
    have hle := hstop.le next
    have hpos := utf8Len_pos_of_first hfirst
    have hlt : c.span.start < stop := by
      rw [String.utf8Len_append] at hle
      rw [Offset.lt_def]
      omega
    obtain ⟨gs, hgs⟩ := exists_whitespace owned
      (by rw [htext, List.append_assoc _ _ rest]) hstart hcstart.symm hw
    obtain ⟨f, hf⟩ := exists_comment htext hcstart hcstop (Offset.le_def.2 (hcstop ▸ hle))
    obtain ⟨fs, left, front', hscan, hfront', hspells⟩ := ih c.isLine hcstop.symm hstop
    refine ⟨gs ++ f :: fs, left, front', ?_, hfront', hspells⟩
    rw [Gap.scanFrom, if_pos hlt]
    exact bind_eq_ok_iff.2 ⟨gs, hgs, bind_eq_ok_iff.2 ⟨f, hf, bind_eq_ok_iff.2 ⟨_, hscan, rfl⟩⟩⟩
  | @word front w rest place word comments words htext hw hfirst hplace next ih =>
    obtain rfl : place = stop := hstop
    obtain ⟨gs, hgs⟩ := exists_whitespace owned
      (by rw [htext, List.append_assoc _ _ rest]) hstart hplace.symm hw
    have hbehind : ∀ c ∈ comments, ¬c.span.start < place := fun c hc hlt => by
      have hle := next.bounds.1 c hc
      rw [String.utf8Len_append] at hle
      rw [Offset.lt_def] at hlt
      omega
    refine ⟨gs, comments, front ++ w, ?_, hplace.symm, ?_⟩
    · cases comments with
      | nil =>
        rw [Gap.scanFrom]
        exact bind_eq_ok_iff.2 ⟨gs, hgs, rfl⟩
      | cons c comments =>
        rw [Gap.scanFrom, if_neg (hbehind c List.mem_cons_self)]
        exact bind_eq_ok_iff.2 ⟨gs, hgs, rfl⟩
    · rw [← List.append_nil (front ++ w)] at htext hplace next
      exact .word htext (by simp) hfirst hplace next

/-! ## Steps -/

namespace Cursor

variable {options : Options} {c : Cursor} {word : String}

/-- The words stand in the text behind the place of the cursor, with the pending comments. -/
def Ready (table : LineTable) (c : Cursor) (words : List (Offset × String)) : Prop :=
  ∃ front, utf8Len front = c.place.toNat ∧ Spells table.text.toList front c.pending words

/-- The place of a cursor that is ready resolves. -/
theorem Ready.exists_resolve (h : c.Ready table words) : ∃ p, table.resolve c.place = .ok p := by
  obtain ⟨front, hfront, hspells⟩ := h
  obtain ⟨rest, htext⟩ := hspells.text_eq
  exact GoTrace.exists_resolve htext hfront

/-- **A cursor that is ready can be moved to the next stop.** -/
theorem Ready.exists_advanceTo (h : c.Ready table words) (hstop : NextStop table words stop) :
    ∃ fs c', c.advanceTo table stop = .ok (fs, c') ∧ c'.place = stop ∧ c'.Ready table words := by
  obtain ⟨front, hfront, hspells⟩ := h
  have hle := hstop.le hspells
  rw [hfront] at hle
  rw [Cursor.advanceTo, if_neg (show ¬stop < c.place from Nat.not_lt.2 hle)]
  split
  · obtain ⟨fs, left, front', hscan, hfront', hspells'⟩ :=
      exists_scanFrom false hspells hfront hstop
    refine ⟨fs, ⟨stop, left⟩, bind_eq_ok_iff.2 ⟨(fs, left), ?_, rfl⟩, rfl, front', hfront',
      hspells'⟩
    rw [Gap.scan]
    split
    · rename_i d hhead
      have hd := hspells.bounds.1 d (List.mem_of_mem_head? hhead)
      rw [if_neg (show ¬d.span.start < c.place from Nat.not_lt.2 (hfront ▸ hd))]
      exact hscan
    · exact hscan
  · rename_i hlt
    refine ⟨[], c, rfl, ?_, front, hfront, hspells⟩
    ext
    rw [Offset.lt_def] at hlt
    omega

/-- A mark can be set at the next stop. -/
theorem Ready.exists_markAt (h : c.Ready table words) (hstop : NextStop table words stop)
    (m : Mark) :
    ∃ fs c', c.markAt table stop m = .ok (fs, c') ∧ c'.place = stop ∧ c'.Ready table words := by
  obtain ⟨fs, c', hadvance, rfl, hready⟩ := h.exists_advanceTo hstop
  obtain ⟨p, hp⟩ := hready.exists_resolve
  exact ⟨_, c', markAt_eq_ok_iff.2 ⟨fs, p, hadvance, LineTable.resolve_eq_ok_iff.1 hp, rfl⟩, rfl,
    hready⟩

/-- A mark can be set where the cursor is. -/
theorem Ready.exists_markHere (h : c.Ready table words) (m : Mark) :
    ∃ fs, c.markAt table c.place m = .ok (fs, c) := by
  obtain ⟨p, hp⟩ := h.exists_resolve
  refine ⟨_, markAt_eq_ok_iff.2 ⟨[], p, ?_, LineTable.resolve_eq_ok_iff.1 hp, rfl⟩⟩
  rw [Cursor.advanceTo, if_neg (show ¬c.place < c.place from Nat.lt_irrefl _),
    if_neg (show ¬c.place < c.place from Nat.lt_irrefl _)]
  rfl

/-- **The first word can be taken.** -/
theorem Ready.exists_takeToken (h : c.Ready table ((stop, word) :: words))
    (hsize : table.size ≤ maxOffset) (owner : NodeKind) :
    ∃ fs c', c.takeToken table owner stop word = .ok (fs, c') ∧
      c'.place = stop.advance word.utf8ByteSize ∧ c'.Ready table words := by
  obtain ⟨fs, d, hadvance, rfl, hready⟩ := h.exists_advanceTo rfl
  obtain ⟨p, hp⟩ := hready.exists_resolve
  obtain ⟨front, hfront, hspells⟩ := hready
  generalize hpending : d.pending = pending at hspells
  cases hspells with
  | comment _ _ hfirst _ _ next =>
    -- the word would stand behind the comment
    have hle : _ ≤ d.place.toNat := next.bounds.2 _ List.mem_cons_self
    have hpos := utf8Len_pos_of_first hfirst
    rw [String.utf8Len_append, String.utf8Len_append] at hle
    omega
  | @word _ w rest _ _ _ _ htext _ _ hplace next =>
    obtain rfl : w = [] := by
      rw [String.utf8Len_append] at hplace
      exact String.utf8Len_eq_zero.1 (by omega)
    rw [List.append_nil] at htext next
    have hlen := congrArg utf8Len htext
    rw [← utf8ByteSize_eq, ← LineTable.size] at hlen
    simp only [String.utf8Len_append, ← utf8ByteSize_eq] at hlen
    have hmax : d.place.toNat + word.utf8ByteSize ≤ maxOffset := by omega
    have hslice := LineTable.slice?_ofLength htext hfront hmax
    have hstop := toNat_advance_of_le d.place word.utf8ByteSize hmax
    subst hpending
    refine ⟨_, ⟨_, d.pending⟩, takeToken_eq_ok_iff.2 ⟨fs, d, p, hadvance, hslice,
      LineTable.resolve_eq_ok_iff.1 hp, rfl, rfl⟩, rfl, _, ?_, next⟩
    rw [hstop, String.utf8Len_append, hfront, utf8ByteSize_eq]

end Cursor

end GoTrace
