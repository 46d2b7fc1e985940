import GoTrace.Proofs.Trace.Coverage

/-!
# Writing a text again from its trace

The positions of the tokens and comments are enough to write the text again, up to the kind of
whitespace: newlines take the pen down to the line of the next fragment, spaces take it on to the
column, and the text of the fragment is written there. The pen never has to go back, and what it
writes is the source in which each stretch of whitespace is brought to one form.

The proof keeps the pen at the line and column that the source has behind the same fragment
(`Tiles.replay_eq`).
-/

namespace GoTrace

open String (utf8Len)

/-! ## The pen -/

/-- What has been written, and the line and column at which the pen stands. -/
structure Page where
  /-- The characters written so far. -/
  chars : List Char
  /-- The line of the pen. -/
  line : Nat
  /-- The column of the pen, in bytes. -/
  column : Nat

namespace Page

/-- The empty page. -/
def blank : Page := ⟨[], 1, 1⟩

/-- Writes newlines until the line is reached. -/
def padLines (page : Page) (line : Nat) : Page :=
  if page.line < line then
    ⟨page.chars ++ List.replicate (line - page.line) '\n', line, 1⟩
  else page

/-- Writes spaces until the column is reached. -/
def padColumns (page : Page) (column : Nat) : Page :=
  if page.column < column then
    { page with chars := page.chars ++ List.replicate (column - page.column) ' ', column := column }
  else page

/-- Writes a text at the pen. -/
def write (page : Page) (text : List Char) : Page :=
  let (line, column) := text.foldl nextLineColumn (page.line, page.column)
  ⟨page.chars ++ text, line, column⟩

/-- Whether the pen is already behind a line and column. -/
def isPast (page : Page) (line column : Nat) : Prop :=
  line < page.line ∨ line = page.line ∧ column < page.column

instance (page : Page) (line column : Nat) : Decidable (page.isPast line column) :=
  inferInstanceAs (Decidable (_ ∨ _))

/-- Writes the text of a fragment at its line and column, unless the pen is already past them. -/
def put (page : Page) (f : Fragment) : Option Page :=
  if page.isPast f.position.line f.position.column then none
  else some (((page.padLines f.position.line).padColumns f.position.column).write
    f.mark.text.toList)

/-- Writes some fragments one after the other. -/
def putAll (page : Page) (fragments : List Fragment) : Option Page := fragments.foldlM put page

end Page

/-- The text that the tokens and comments of a trace are written to, if the pen never has to go
back. -/
def replay (fragments : List Fragment) : Option (List Char) :=
  (Page.blank.putAll (textFragments fragments)).map Page.chars

/-! ## The source with plain whitespace -/

/-- The number of bytes behind the last newline. -/
def bytesAfterNewline (w : List Char) : Nat := utf8Len (w.reverse.takeWhile (· != '\n'))

/-- The plain form of a stretch of whitespace: its newlines, and then a space for each byte behind
the last of them. -/
def plainSpace (w : List Char) : List Char :=
  List.replicate (w.count '\n') '\n' ++ List.replicate (bytesAfterNewline w) ' '

/-- The texts of the fragments in order, each behind the plain form of the whitespace in front of it
in the source; `place` is where that of the first begins. There is no such text if anything else
than whitespace is in front of a fragment. -/
def respaced (table : LineTable) : Offset → List Fragment → Option (List Char)
  | _, [] => some []
  | place, f :: fs =>
    match table.slice? ⟨place, f.position.offset⟩ with
    | none => none
    | some w =>
      if w.toList.all Gap.isSpace then
        (respaced table f.span.stop fs).map (plainSpace w.toList ++ f.mark.text.toList ++ ·)
      else none

/-! ## The pen follows the source -/

/-- Reading a text takes the line on by its newlines. The column starts anew behind the last one, or
is taken on by all bytes if there is none. -/
theorem foldl_nextLineColumn (w : List Char) (p : Nat × Nat) :
    w.foldl nextLineColumn p =
      (p.1 + w.count '\n', (if '\n' ∈ w then 1 else p.2) + bytesAfterNewline w) := by
  induction w using List.reverseRecOn with
  | nil => simp [bytesAfterNewline]
  | append_singleton w c ih =>
    rw [List.foldl_append, ih, List.foldl_cons, List.foldl_nil, nextLineColumn]
    by_cases hc : c = '\n'
    · rw [if_pos hc, hc]
      simp [bytesAfterNewline, Nat.add_assoc]
    · rw [if_neg hc]
      simp [bytesAfterNewline, hc, Ne.symm hc, Nat.add_assoc]

/-- Padding up to where the source goes on behind `w` writes the plain form of `w`. -/
theorem Page.pad_eq {page : Page} {w : List Char} {line column : Nat}
    (h : w.foldl nextLineColumn (page.line, page.column) = (line, column)) :
    ¬page.isPast line column ∧
      (page.padLines line).padColumns column = ⟨page.chars ++ plainSpace w, line, column⟩ := by
  rw [foldl_nextLineColumn, Prod.mk.injEq] at h
  obtain ⟨rfl, rfl⟩ := h
  by_cases hw : '\n' ∈ w
  · have hcount : 0 < w.count '\n' := List.count_pos_iff.2 hw
    rw [if_pos hw, isPast, padLines, if_pos (by omega)]
    refine ⟨by omega, ?_⟩
    rcases Nat.eq_zero_or_pos (bytesAfterNewline w) with h0 | hpos
    · simp [padColumns, plainSpace, h0]
    · simp [padColumns, plainSpace, hpos]
  · have hcount : w.count '\n' = 0 := List.count_eq_zero.2 hw
    rw [if_neg hw, isPast, padLines, if_neg (by omega), hcount]
    refine ⟨by omega, ?_⟩
    rcases Nat.eq_zero_or_pos (bytesAfterNewline w) with h0 | hpos
    · simp [padColumns, plainSpace, hcount, h0]
    · simp [padColumns, plainSpace, hcount, hpos]

variable {table : LineTable} {stop : Offset} {front : List Char} {fs : List Fragment}

/-- **The pen follows the source**: if it stands where the source goes on behind `front`, it writes
the rest of the source with plain whitespace. -/
theorem Tiles.putAll_eq (h : Tiles table stop front fs) {place : Offset} {page : Page}
    (hplace : utf8Len front = place.toNat) (hpage : lineColumn front = (page.line, page.column)) :
    ∃ rest page', respaced table place fs = some rest ∧ page.putAll fs = some page' ∧
      page'.chars = page.chars ++ rest := by
  induction h generalizing place page with
  | done htext hspace hstop => exact ⟨[], page, rfl, rfl, by rw [List.append_nil]⟩
  | @text front w rest f fs htext hspace hp hstart next ih =>
    have hslice : table.slice? ⟨place, f.position.offset⟩ = some (String.ofList w) := by
      refine LineTable.slice?_eq_some_iff.2 ⟨front, f.mark.text.toList ++ rest, ?_, hplace, ?_⟩
      · simp [htext]
      · rw [String.toList_ofList, ← String.utf8Len_append, ← hstart]
        rfl
    -- the fragment is where the pen gets to when it reads `w`
    have hread : (page.line, page.column) = lineColumn front := hpage.symm
    have hp' := LineTable.position?_eq_lineColumn
      (htext.trans (List.append_assoc (front ++ w) _ _)) hstart.symm
    rw [hp, Option.some.injEq] at hp'
    have htarget : (f.position.line, f.position.column) = lineColumn (front ++ w) := by rw [hp']
    have hfold : w.foldl nextLineColumn (page.line, page.column) =
        (f.position.line, f.position.column) := by
      rw [hread, htarget, lineColumn_append]
    obtain ⟨hpast, hpad⟩ := Page.pad_eq hfold
    have hstop : f.span.stop.toNat = utf8Len (front ++ w ++ f.mark.text.toList) := by
      have hle := next.bounds.1.trans stop.le_max
      rw [String.utf8Len_append, ← hstart, ← utf8ByteSize_eq] at hle ⊢
      exact Nat.min_eq_left hle
    let page' := Page.write ⟨page.chars ++ plainSpace w, f.position.line, f.position.column⟩
      f.mark.text.toList
    have hpen : lineColumn (front ++ w ++ f.mark.text.toList) = (page'.line, page'.column) := by
      rw [lineColumn_append, ← htarget]
      rfl
    obtain ⟨tail, last, htail, hlast, hchars⟩ := ih hstop.symm hpen
    refine ⟨plainSpace w ++ f.mark.text.toList ++ tail, last, ?_, ?_, ?_⟩
    · have hall : (String.ofList w).toList.all Gap.isSpace = true := by
        rw [String.toList_ofList]
        exact List.all_eq_true.2 hspace
      rw [respaced, hslice]
      dsimp only
      rw [if_pos hall, htail, Option.map_some, String.toList_ofList]
    · rw [Page.putAll, List.foldlM_cons, Page.put, if_neg hpast, hpad]
      exact hlast
    · have hpage' : page'.chars = page.chars ++ plainSpace w ++ f.mark.text.toList := rfl
      rw [hchars, hpage']
      simp only [List.append_assoc]

/-- **A trace can be written again.** The pen never has to go back, and writes the source with each
stretch of whitespace in its plain form. -/
theorem replay_eq_respaced {file : File} {options : Options} {fragments : List Fragment}
    (h : file.trace table options = .ok fragments) :
    ∃ text, replay fragments = some text ∧
      respaced table .zero (textFragments fragments) = some text := by
  obtain ⟨rest, page, hrest, hpage, hchars⟩ :=
    (tiles_of_trace h).putAll_eq (show utf8Len [] = Offset.zero.toNat from rfl)
      (show lineColumn [] = (Page.blank.line, Page.blank.column) from rfl)
  exact ⟨rest, by rw [replay, hpage, Option.map_some, hchars]; rfl, hrest⟩

/-- The trace of `clauseFile` can be written again. -/
theorem replay_clauseFile :
    ∃ fragments text, clauseFile.trace (.ofString clauseText) {} = .ok fragments ∧
      replay fragments = some text ∧
      respaced (.ofString clauseText) .zero (textFragments fragments) = some text := by
  obtain ⟨fragments, h⟩ := exists_trace_clauseFile
  obtain ⟨text, hreplay, hrespaced⟩ := replay_eq_respaced h
  exact ⟨fragments, text, h, hreplay, hrespaced⟩

end GoTrace
