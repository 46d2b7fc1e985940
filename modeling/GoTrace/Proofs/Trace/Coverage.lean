import GoTrace.Proofs.Source.Whitespace
import GoTrace.Proofs.Trace.Account

/-!
# The fragments that cover text

Tokens and comments cover text, and the other fragments only mark a place. Without the others a
trace tiles its text: the tokens and comments follow each other, with nothing but whitespace in
front of, between and behind them. `Tiles` is this relation, and `trace_covers_text` says it with
bytes.
-/

namespace GoTrace

open String (utf8Len)

/-- Whether a mark covers text: whether it is a token or a comment. -/
def Mark.isText : Mark → Bool
  | token _ _ | comment _ => true
  | nodeStart _ | checkpoint _ _ | nodeEnd _ | lineBreak | blankLine => false

namespace Fragment

/-- The number of bytes in front of a fragment. -/
def start (f : Fragment) : Nat := f.position.offset.toNat

/-- The number of bytes up to the end of the text that a fragment covers. -/
def stop (f : Fragment) : Nat := f.start + f.mark.text.utf8ByteSize

/-- The span of the text that a fragment covers. -/
def span (f : Fragment) : Span := .ofLength f.position.offset f.mark.text.utf8ByteSize

end Fragment

/-- The fragments that cover text. -/
def textFragments (fragments : List Fragment) : List Fragment := fragments.filter (·.mark.isText)

/-! ## Tiles -/

/-- The fragments cover the text from behind the characters `front` up to `stop`, but for
whitespace. -/
inductive Tiles (table : LineTable) (stop : Offset) : (front : List Char) → List Fragment → Prop
  /-- Nothing but whitespace is left. -/
  | done {front w rest : List Char} (htext : table.text.toList = front ++ w ++ rest)
      (hspace : ∀ c ∈ w, Gap.isSpace c) (hstop : utf8Len (front ++ w) = stop.toNat) :
      Tiles table stop front []
  /-- Whitespace, and behind it a fragment. -/
  | text {front w rest : List Char} {f : Fragment} {fs : List Fragment}
      (htext : table.text.toList = front ++ w ++ f.mark.text.toList ++ rest)
      (hspace : ∀ c ∈ w, Gap.isSpace c)
      (hp : table.position? f.position.offset = some f.position)
      (hplace : f.start = utf8Len (front ++ w))
      (next : Tiles table stop (front ++ w ++ f.mark.text.toList) fs) :
      Tiles table stop front (f :: fs)

variable {table : LineTable} {stop : Offset} {front : List Char} {fs : List Fragment}

/-- Whitespace in front of tiles may be put to that of the first tile. -/
theorem Tiles.space {w : List Char} (h : Tiles table stop (front ++ w) fs)
    (hw : ∀ c ∈ w, Gap.isSpace c) : Tiles table stop front fs := by
  have hspace : ∀ {v : List Char}, (∀ c ∈ v, Gap.isSpace c) → ∀ c ∈ w ++ v, Gap.isSpace c := by
    intro v hv c hc
    exact (List.mem_append.1 hc).elim (hw c) (hv c)
  cases h with
  | done htext hv hstop =>
    exact .done (by rw [htext, List.append_assoc front]) (hspace hv)
      (by rw [← hstop, List.append_assoc front])
  | text htext hv hp hplace next =>
    rw [List.append_assoc front] at htext hplace next
    exact .text htext (hspace hv) hp hplace next

/-- Markers cover no text. -/
theorem filter_markers {start : Offset} {w : List Char} {owned : Bool} {gs : List Fragment}
    (h : Gap.markers table start w owned = .ok gs) : textFragments gs = [] := by
  refine List.filter_eq_nil_iff.2 fun g hg => ?_
  have hline := isLineMarker_of_markers h g hg
  cases hmark : g.mark <;> simp [hmark, Mark.kind, MarkKind.isLineMarker] at hline <;>
    simp [Mark.isText]

/-- **Without its other fragments, an account of a text tiles it.** -/
theorem tiles_of_accounts {pending : List Comment} {owned : Bool}
    (h : Accounts table stop front pending owned fs) :
    Tiles table stop front (textFragments fs) := by
  induction h with
  | @done front rest owned htext hstop =>
    exact .done (show _ = front ++ [] ++ rest by rw [List.append_nil, htext]) (by simp)
      (by rw [List.append_nil, hstop])
  | @mark front w rest pending owned m p gs fs htext hblank hmark hp hplace next ih =>
    obtain ⟨hw, _, -, hmarkers⟩ := hblank
    rw [textFragments, List.filter_append, ← textFragments, filter_markers hmarkers,
      List.nil_append, List.filter_cons]
    split
    · exact .text htext hw hp hplace ih
    · rename_i hm
      have hempty : m.text = "" := by cases m <;> simp_all [Mark.isText, Mark.text]
      rw [hempty, String.toList_empty, List.append_nil] at ih
      exact ih.space hw
  | @comment front w rest c pending owned p gs fs htext hblank hp hplace hstart hstop next ih =>
    obtain ⟨hw, _, -, hmarkers⟩ := hblank
    rw [textFragments, List.filter_append, ← textFragments, filter_markers hmarkers,
      List.nil_append, List.filter_cons]
    exact .text htext hw hp hplace ih

/-- The tokens and comments of a trace tile the text of the file. -/
theorem tiles_of_trace {file : File} {options : Options} {fragments : List Fragment}
    (h : file.trace table options = .ok fragments) :
    Tiles table file.span.stop [] (textFragments fragments) :=
  tiles_of_accounts (File.accounts_of_trace h)

/-! ## What tiles cover -/

/-- The end of a fragment whose text stands behind some characters. -/
theorem Fragment.stop_eq {f : Fragment} (h : f.start = utf8Len front) :
    f.stop = utf8Len (front ++ f.mark.text.toList) := by
  rw [Fragment.stop, h, String.utf8Len_append, utf8ByteSize_eq]

/-- A tile lies between the end of what is in front and the end of the whole. -/
theorem Tiles.bounds (h : Tiles table stop front fs) :
    utf8Len front ≤ stop.toNat ∧ ∀ f ∈ fs, utf8Len front ≤ f.start ∧ f.stop ≤ stop.toNat := by
  induction h with
  | done htext hspace hstop =>
    rw [String.utf8Len_append] at hstop
    exact ⟨by omega, by simp⟩
  | @text front w rest f fs htext hspace hp hplace next ih =>
    have hstop := Fragment.stop_eq hplace
    obtain ⟨hle, hall⟩ := ih
    simp only [String.utf8Len_append] at hle hall hplace hstop
    refine ⟨by omega, fun g hg => ?_⟩
    rcases List.mem_cons.1 hg with rfl | hg
    · omega
    · have := hall g hg
      omega

/-- Tiles do not overlap, and they stand in order. -/
theorem Tiles.pairwise (h : Tiles table stop front fs) : fs.Pairwise (·.stop ≤ ·.start) := by
  induction h with
  | done htext hspace hstop => exact .nil
  | text htext hspace hp hplace next ih =>
    refine .cons (fun g hg => ?_) ih
    rw [Fragment.stop_eq hplace]
    exact (next.bounds.2 g hg).1

/-- The text of a tile is that of the source at its place. -/
theorem Tiles.slice? (h : Tiles table stop front fs) :
    ∀ f ∈ fs, table.slice? f.span = some f.mark.text := by
  induction h with
  | done htext hspace hstop => simp
  | @text front w rest f fs htext hspace hp hplace next ih =>
    have hle := next.bounds.1.trans stop.le_max
    rw [String.utf8Len_append, ← utf8ByteSize_eq, ← hplace] at hle
    exact List.forall_mem_cons.2 ⟨LineTable.slice?_ofLength htext hplace.symm hle, ih⟩

/-- **Every byte of a tiled text is whitespace or lies in a tile.** -/
theorem Tiles.space_of_outside (h : Tiles table stop front fs) {i : Nat}
    (hfront : utf8Len front ≤ i) (hstop : i < stop.toNat)
    (hout : ∀ f ∈ fs, ¬(f.start ≤ i ∧ i < f.stop)) :
    ∃ h : i < table.text.toByteArray.size, table.text.toByteArray[i] ∈ spaceBytes := by
  induction h with
  | done htext hspace hlen => exact space_of_blank htext hspace hfront (hlen ▸ hstop)
  | @text front w rest f fs htext hspace hp hplace next ih =>
    by_cases hi : i < utf8Len (front ++ w)
    · rw [List.append_assoc _ f.mark.text.toList] at htext
      exact space_of_blank htext hspace hfront hi
    · refine ih ?_ fun g hg => hout g (List.mem_cons_of_mem f hg)
      have := hout f List.mem_cons_self
      rw [← Fragment.stop_eq hplace]
      omega

/-- **A trace covers its text.** Its tokens and comments follow each other without overlap and end
with the file, each has the text of the source at its place, and every byte of the file that is in
none of them is whitespace. -/
theorem trace_covers_text {file : File} {options : Options} {fragments : List Fragment}
    (h : file.trace table options = .ok fragments) :
    (textFragments fragments).Pairwise (·.stop ≤ ·.start) ∧
      (∀ f ∈ textFragments fragments,
        f.stop ≤ file.span.stop.toNat ∧ table.slice? f.span = some f.mark.text) ∧
      ∀ i < file.span.stop.toNat,
        (∀ f ∈ textFragments fragments, ¬(f.start ≤ i ∧ i < f.stop)) →
          ∃ h : i < table.text.toByteArray.size, table.text.toByteArray[i] ∈ spaceBytes := by
  have htiles := tiles_of_trace h
  refine ⟨htiles.pairwise, fun f hf => ⟨(htiles.bounds.2 f hf).2, htiles.slice? f hf⟩, ?_⟩
  intro i hi hout
  exact htiles.space_of_outside (Nat.zero_le i) hi hout

/-- The file that a package clause and a comment spell. -/
def clauseFile : File where
  package := .zero
  name := ⟨.ofNat 9, "p"⟩
  decls := []
  comments := [⟨.line, "// é", ⟨.ofNat 11, .ofNat 16⟩⟩]
  span := ⟨.zero, .ofNat 17⟩

/-- The text of `clauseFile`, with a tab, a newline and a character of two bytes. -/
def clauseText : String := "package\t\np // é\n"

/-- `clauseFile` has a trace over its text. -/
theorem exists_trace_clauseFile :
    ∃ fragments, clauseFile.trace (.ofString clauseText) {} = .ok fragments := by
  have hok : (clauseFile.trace (.ofString clauseText) {}).isOk := by decide +kernel
  rcases htrace : clauseFile.trace (.ofString clauseText) {} with e | fragments
  · rw [htrace] at hok
    cases hok
  · exact ⟨fragments, rfl⟩

/-- The trace of `clauseFile` covers its text. -/
theorem trace_covers_clauseText :
    ∃ fragments, clauseFile.trace (.ofString clauseText) {} = .ok fragments ∧
      (textFragments fragments).Pairwise (·.stop ≤ ·.start) ∧
      (∀ f ∈ textFragments fragments, f.stop ≤ clauseFile.span.stop.toNat ∧
        (LineTable.ofString clauseText).slice? f.span = some f.mark.text) ∧
      ∀ i < clauseFile.span.stop.toNat,
        (∀ f ∈ textFragments fragments, ¬(f.start ≤ i ∧ i < f.stop)) →
          ∃ h : i < clauseText.toByteArray.size, clauseText.toByteArray[i] ∈ spaceBytes := by
  obtain ⟨fragments, h⟩ := exists_trace_clauseFile
  exact ⟨fragments, h, trace_covers_text h⟩

end GoTrace
