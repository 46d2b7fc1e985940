import GoTrace.Proofs.Trace.Markers

/-!
# The order of a trace

The fragments of a trace come from different places: the starts and ends of constructs from their
spans, tokens from the tree, comments from the list of the file, and line markers from the text. The
cursor puts them in one order, from the front of the text to its end: each fragment starts where
those in front of it have ended, or behind (`trace_ordered`). The comments of the file come up on
the way, each once, as the file lists them (`trace_comments_eq`).

Both are read off the account of the trace, one layer at a time: a stretch of whitespace with its
markers, and the fragment behind it.
-/

namespace GoTrace

open String (utf8Len)

variable {table : LineTable} {stop : Offset} {front w : List Char} {pending : List Comment}
  {owned : Bool} {gs fs : List Fragment} {f : Fragment}

/-! ## Offsets -/

/-- A marker ends where it starts. -/
theorem Fragment.stop_of_isLineMarker (h : f.mark.kind.isLineMarker) : f.stop = f.start := by
  have hempty : f.mark.text = "" := by
    cases hmark : f.mark <;> simp_all [Mark.kind, MarkKind.isLineMarker, Mark.text]
  rw [Fragment.stop, hempty]
  rfl

/-- The markers of a stretch of whitespace lie in it. -/
theorem Blank.bounds (h : Blank table front w owned gs) (hmax : utf8Len (front ++ w) ≤ maxOffset) :
    ∀ g ∈ gs, utf8Len front ≤ g.start ∧ g.start ≤ utf8Len (front ++ w) := by
  intro g hg
  have hmem : (g.mark, g.start) ∈ lineMarks (utf8Len front) w owned := by
    rw [← h.marks_eq hmax]
    exact List.mem_map_of_mem hg
  rw [String.utf8Len_append]
  exact bounds_of_mem_lineMarks hmem

/-- The markers of a stretch of whitespace stand in order. -/
theorem Blank.pairwise (h : Blank table front w owned gs)
    (hmax : utf8Len (front ++ w) ≤ maxOffset) : gs.Pairwise (·.stop ≤ ·.start) := by
  have hmarks : (gs.map fun g => (g.mark, g.start)).Pairwise (·.2 ≤ ·.2) := by
    rw [h.marks_eq hmax]
    exact pairwise_lineMarks
  rw [List.pairwise_map] at hmarks
  refine hmarks.imp_of_mem fun {a b} ha _ hle => ?_
  rw [Fragment.stop_of_isLineMarker (h.isLineMarker a ha)]
  exact hle

/-- Whitespace and a fragment in front of fragments in order are in order with them. -/
theorem Blank.pairwise_cons (h : Blank table front w owned gs)
    (hf : f.start = utf8Len (front ++ w)) (hnext : ∀ g ∈ fs, f.stop ≤ g.start)
    (hfs : fs.Pairwise (·.stop ≤ ·.start)) :
    (∀ g ∈ gs ++ f :: fs, utf8Len front ≤ g.start) ∧
      (gs ++ f :: fs).Pairwise (·.stop ≤ ·.start) := by
  -- places in a text that an offset reaches are exact
  have hmax : utf8Len (front ++ w) ≤ maxOffset := hf ▸ f.position.offset.le_max
  have hfront : utf8Len front ≤ f.start := by
    rw [hf, String.utf8Len_append]
    exact Nat.le_add_right _ _
  have hbehind : ∀ g ∈ f :: fs, f.start ≤ g.start := by
    intro g hg
    rcases List.mem_cons.1 hg with rfl | hg
    · exact Nat.le_refl _
    · exact Nat.le_trans (Nat.le_add_right _ _) (hnext g hg)
  refine ⟨fun g hg => ?_, List.pairwise_append.2 ⟨h.pairwise hmax, .cons hnext hfs, ?_⟩⟩
  · rcases List.mem_append.1 hg with hg | hg
    · exact (h.bounds hmax g hg).1
    · exact Nat.le_trans hfront (hbehind g hg)
  · intro a ha b hb
    calc a.stop = a.start := Fragment.stop_of_isLineMarker (h.isLineMarker a ha)
      _ ≤ f.start := hf ▸ (h.bounds hmax a ha).2
      _ ≤ b.start := hbehind b hb

/-- **The fragments of an account stand in order**, and none of them starts in front of it. -/
theorem Accounts.pairwise (h : Accounts table stop front pending owned fs) :
    (∀ g ∈ fs, utf8Len front ≤ g.start) ∧ fs.Pairwise (·.stop ≤ ·.start) := by
  induction h with
  | done htext hstop => exact ⟨by simp, .nil⟩
  | @mark front w rest pending owned m p gs fs htext hblank hmark hp hplace next ih =>
    refine hblank.pairwise_cons hplace ?_ ih.2
    rw [Fragment.stop_eq (f := ⟨m, p⟩) hplace]
    exact ih.1
  | @comment front w rest c pending owned p gs fs htext hblank hp hplace hstart hstop next ih =>
    refine hblank.pairwise_cons hplace ?_ ih.2
    rw [Fragment.stop_eq (f := ⟨.comment c.text, p⟩) hplace]
    exact ih.1

/-- **A trace never goes back.** The offsets of its fragments do not decrease, and no fragment
starts in front of the end of a token or comment before it. -/
theorem trace_ordered {file : File} {options : Options} {fragments : List Fragment}
    (h : file.trace table options = .ok fragments) :
    (fragments.map Fragment.start).Pairwise (· ≤ ·) ∧
      fragments.Pairwise (·.stop ≤ ·.start) := by
  have hordered := (File.accounts_of_trace h).pairwise.2
  refine ⟨List.pairwise_map.2 (hordered.imp fun {a b} hle => ?_), hordered⟩
  exact Nat.le_trans (Nat.le_add_right _ _) hle

/-- The trace of `clauseFile` never goes back. -/
theorem trace_ordered_clauseText :
    ∃ fragments, clauseFile.trace (.ofString clauseText) {} = .ok fragments ∧
      (fragments.map Fragment.start).Pairwise (· ≤ ·) ∧
      fragments.Pairwise (·.stop ≤ ·.start) := by
  obtain ⟨fragments, h⟩ := exists_trace_clauseFile
  exact ⟨fragments, h, trace_ordered h⟩

/-! ## Comments -/

/-- The place and the text of a comment. -/
def Fragment.comment? (f : Fragment) : Option (Offset × String) :=
  match f.mark with
  | .comment text => some (f.position.offset, text)
  | _ => none

/-- Only comments have a place and text as such. -/
theorem Fragment.comment?_eq_none (h : f.mark.kind ≠ .comment) : f.comment? = none := by
  rw [comment?]
  split
  · rename_i hmark
    rw [hmark] at h
    exact absurd rfl h
  · rfl

/-- A stretch of whitespace has no comments. -/
theorem Blank.comments_eq (h : Blank table front w owned gs) :
    gs.filterMap Fragment.comment? = [] := by
  rw [List.filterMap_eq_nil_iff]
  intro g hg
  exact Fragment.comment?_eq_none (Mark.ne_comment_of_isLineMarker (h.isLineMarker g hg))

/-- **An account has the comments that are pending**, and no others. -/
theorem Accounts.comments_eq (h : Accounts table stop front pending owned fs) :
    fs.filterMap Fragment.comment? = pending.map fun c => (c.span.start, c.text) := by
  induction h with
  | done htext hstop => rfl
  | mark htext hblank hmark hp hplace next ih =>
    rw [List.filterMap_append, hblank.comments_eq, List.nil_append,
      List.filterMap_cons_none (Fragment.comment?_eq_none (Mark.ne_comment_of_construct hmark)), ih]
  | @comment front w rest c pending owned p gs fs htext hblank hp hplace hstart hstop next ih =>
    have hcomment : Fragment.comment? ⟨.comment c.text, p⟩ = some (p.offset, c.text) := rfl
    rw [List.filterMap_append, hblank.comments_eq, List.nil_append,
      List.filterMap_cons_some hcomment, ih, List.map_cons, hstart]

/-- **A trace has the comments of its file**, each once, in the order of the file and where the file
says. -/
theorem trace_comments_eq {file : File} {options : Options} {fragments : List Fragment}
    (h : file.trace table options = .ok fragments) :
    fragments.filterMap Fragment.comment? =
      file.comments.map fun c => (c.span.start, c.text) :=
  (File.accounts_of_trace h).comments_eq

/-- The trace of `clauseFile` has its comment. -/
theorem trace_comments_clauseText :
    ∃ fragments, clauseFile.trace (.ofString clauseText) {} = .ok fragments ∧
      fragments.filterMap Fragment.comment? = [(.ofNat 11, "// é")] := by
  obtain ⟨fragments, h⟩ := exists_trace_clauseFile
  exact ⟨fragments, h, trace_comments_eq h⟩

end GoTrace
