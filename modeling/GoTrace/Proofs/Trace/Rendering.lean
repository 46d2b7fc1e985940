import GoTrace.Proofs.Layout.Labels
import GoTrace.Proofs.Text.Quoted
import GoTrace.Proofs.Trace.Checkpoints
import GoTrace.Proofs.Trace.Markers

/-!
# Reading a rendered trace

The text of a trace says all that a trace shows. It has one line for each fragment, and two traces
have the same text just if they agree in every fragment, down to the names, texts, lines and columns
(`renderAll_of_trace`); of a fragment only the offset is not written.

A line is made of pieces with a space behind each, and a line and column at its end. A piece is a
word or a quoted text (`Mark.pieces`). The one begins with a letter, the other with a quote, and the
position with a digit, so a line can be read from the front, and a mark is known from its pieces. The
names of constructs and checkpoints are words, whatever the file.
-/

namespace GoTrace

variable {rest rest' : List Char}

/-! ## Words and quoted texts -/

/-- A piece of a line. -/
inductive Piece
  | word (word : String)
  | quoted (text : String)

namespace Piece

/-- Whether a piece is a word. -/
def isWord : Piece → Bool
  | word _ => true
  | quoted _ => false

/-- The words of a trace are made of letters. -/
def IsFormed : Piece → Prop
  | word w => IsWord w
  | quoted _ => True

/-- The characters of a piece, with a space behind them. -/
def chars : Piece → List Char
  | word w => w.toList ++ [' ']
  | quoted text => (Quoted.encode text).toList ++ [' ']

/-- A letter is no digit. -/
private theorem isDigit_of_isAlpha {c : Char} (h : c.isAlpha) : c.isDigit = false := by
  have hletter : (decide (c.val ≥ 'A'.val ∧ c.val ≤ 'Z'.val) ||
    c.val ≥ 'a'.val && c.val ≤ 'z'.val) = true := h
  rw [Bool.eq_false_iff, Ne, Char.isDigit_iff_toNat]
  simp [UInt32.le_iff_toNat_le] at hletter ⊢
  omega

/-- Only a word begins with a letter, and no piece with a digit. -/
theorem exists_cons {p : Piece} (h : p.IsFormed) :
    ∃ c cs, p.chars = c :: cs ∧ c.isAlpha = p.isWord ∧ c.isDigit = false := by
  cases p with
  | word w =>
    obtain ⟨hne, halpha⟩ := h
    cases hw : w.toList with
    | nil => exact absurd (String.toList_eq_nil_iff.1 hw) hne
    | cons c cs =>
      have hc : c.isAlpha := halpha c (hw ▸ List.mem_cons_self)
      exact ⟨c, cs ++ [' '], by rw [chars, hw]; rfl, hc, isDigit_of_isAlpha hc⟩
  | quoted text =>
    exact ⟨'"', _, by rw [chars, Quoted.toList_encode]; rfl, rfl, rfl⟩

/-- A piece does not begin with a digit. -/
theorem isDigit_of_chars {p : Piece} {c : Char} (hp : p.IsFormed)
    (h : p.chars ++ rest = c :: rest') : c.isDigit = false := by
  obtain ⟨d, ds, hd, -, hdigit⟩ := exists_cons hp
  rw [hd] at h
  exact (List.cons.inj h).1 ▸ hdigit

/-- Words and quoted texts can be told apart. -/
theorem isWord_eq_of_chars {p q : Piece} (hp : p.IsFormed) (hq : q.IsFormed)
    (h : p.chars ++ rest = q.chars ++ rest') : p.isWord = q.isWord := by
  obtain ⟨c, cs, hc, hword, -⟩ := exists_cons hp
  obtain ⟨d, ds, hd, hword', -⟩ := exists_cons hq
  rw [hc, hd] at h
  rw [← hword, ← hword', (List.cons.inj h).1]

private theorem space_notMem {w : String} (h : IsWord w) : ' ' ∉ w.toList := fun hmem =>
  absurd (h.2 ' ' hmem) (by decide)

/-- **A piece is known from its characters**, whatever stands behind them. -/
theorem chars_append_inj {p q : Piece} (hp : p.IsFormed) (hq : q.IsFormed)
    (h : p.chars ++ rest = q.chars ++ rest') : p = q ∧ rest = rest' := by
  have hword := isWord_eq_of_chars hp hq h
  cases p with
  | word w =>
    cases q with
    | word w' =>
      simp only [chars, List.append_assoc, List.singleton_append] at h
      obtain ⟨hw, hrest⟩ := append_cons_inj (space_notMem hp) (space_notMem hq) h
      exact ⟨congrArg word (String.toList_inj.1 hw), hrest⟩
    | quoted text => cases hword
  | quoted text =>
    cases q with
    | word w => cases hword
    | quoted text' =>
      simp only [chars, List.append_assoc] at h
      obtain ⟨rfl, hspace⟩ := Quoted.encode_append_inj h
      exact ⟨rfl, (List.cons.inj hspace).2⟩

theorem newline_notMem_chars {p : Piece} (hp : p.IsFormed) : '\n' ∉ p.chars := by
  cases p with
  | word w =>
    rw [chars, List.mem_append, List.mem_singleton]
    rintro (h | h)
    · exact absurd (hp.2 _ h) (by decide)
    · exact absurd h (by decide)
  | quoted text =>
    rw [chars, List.mem_append, List.mem_singleton]
    rintro (h | h)
    · exact Quoted.newline_notMem_encode text h
    · exact absurd h (by decide)

end Piece

/-! ## Lines and columns -/

namespace Position

theorem toList_text (p : Position) :
    p.text.toList = Nat.toDigits 10 p.line ++ ':' :: Nat.toDigits 10 p.column := by
  simp only [text, toString, String.toList_append, Nat.toList_repr, List.append_assoc]
  rfl

private theorem digits (n : Nat) : ∀ c ∈ Nat.toDigits 10 n, c.isDigit ∧ c ≠ ':' ∧ c ≠ '\n' :=
  forall_mem_toDigits (by decide) (by decide) n

/-- The text of a position begins with a digit. -/
theorem exists_text_eq (p : Position) : ∃ c cs, p.text.toList = c :: cs ∧ c.isDigit := by
  rw [toList_text]
  cases hline : Nat.toDigits 10 p.line with
  | nil => exact absurd hline Nat.toDigits_ne_nil
  | cons c cs => exact ⟨c, _, rfl, (digits p.line c (hline ▸ List.mem_cons_self)).1⟩

/-- A position at the end of a line is known, but for its offset. -/
theorem text_append_inj {p q : Position}
    (h : p.text.toList ++ '\n' :: rest = q.text.toList ++ '\n' :: rest') :
    (p.line = q.line ∧ p.column = q.column) ∧ rest = rest' := by
  simp only [toList_text, List.append_assoc, List.cons_append] at h
  have hcolon (n : Nat) : ':' ∉ Nat.toDigits 10 n := fun hmem => (digits n _ hmem).2.1 rfl
  have hnewline (n : Nat) : '\n' ∉ Nat.toDigits 10 n := fun hmem => (digits n _ hmem).2.2 rfl
  obtain ⟨hline, hbehind⟩ := append_cons_inj (hcolon _) (hcolon _) h
  obtain ⟨hcolumn, hrest⟩ := append_cons_inj (hnewline _) (hnewline _) hbehind
  exact ⟨⟨toDigits_inj (by decide) (by decide) hline,
    toDigits_inj (by decide) (by decide) hcolumn⟩, hrest⟩

theorem newline_notMem_text (p : Position) : '\n' ∉ p.text.toList := by
  rw [toList_text, List.mem_append, List.mem_cons]
  rintro (h | h | h)
  · exact (digits _ _ h).2.2 rfl
  · exact absurd h (by decide)
  · exact (digits _ _ h).2.2 rfl

end Position

/-! ## Marks -/

namespace Mark

/-- A checkpoint has the name of one. -/
def IsLabeled : Mark → Prop
  | checkpoint _ label => IsLabel label
  | nodeStart _ | nodeEnd _ | token _ _ | comment _ | lineBreak | blankLine => True

/-- The pieces of the line for a mark. -/
def pieces : Mark → List Piece
  | nodeStart construct => [.word construct.name, .word "Start"]
  | checkpoint construct label => [.word construct.name, .word label]
  | nodeEnd construct => [.word construct.name, .word "End"]
  | token construct text => [.word construct.name, .quoted text]
  | comment text => [.quoted text]
  | lineBreak => [.word "New", .word "line"]
  | blankLine => [.word "Empty", .word "line"]

/-- A mark is written as its pieces. -/
theorem toList_render (m : Mark) : m.render.toList ++ [' '] = m.pieces.flatMap Piece.chars := by
  cases m <;> simp [render, pieces, Piece.chars, toString]

theorem isFormed_pieces {m : Mark} (h : m.IsLabeled) : ∀ p ∈ m.pieces, p.IsFormed := by
  cases m with
  | checkpoint construct label => simp [pieces, Piece.IsFormed, construct.isWord_name, h.1]
  | nodeStart construct => simp +decide [pieces, Piece.IsFormed, construct.isWord_name]
  | nodeEnd construct => simp +decide [pieces, Piece.IsFormed, construct.isWord_name]
  | token construct text => simp [pieces, Piece.IsFormed, construct.isWord_name]
  | comment text => simp [pieces, Piece.IsFormed]
  | lineBreak => simp +decide [pieces, Piece.IsFormed]
  | blankLine => simp +decide [pieces, Piece.IsFormed]

/-- **A mark is known from its pieces.** -/
theorem pieces_inj {m n : Mark} (hm : m.IsLabeled) (hn : n.IsLabeled)
    (h : m.pieces = n.pieces) : m = n := by
  have hname (k k' : NodeKind) : k.name = k'.name ↔ k = k' :=
    ⟨NodeKind.name_injective, congrArg NodeKind.name⟩
  have hne (k : NodeKind) : "New" ≠ k.name ∧ "Empty" ≠ k.name :=
    ⟨k.name_ne.1.symm, k.name_ne.2.symm⟩
  cases m <;> cases n <;> simp_all [pieces, IsLabeled, IsLabel, NodeKind.name_ne]

/-- A mark is known from what a trace shows of it. -/
theorem eq_of_shown {m n : Mark} (hkind : m.kind = n.kind)
    (hconstruct : m.construct? = n.construct?) (hlabel : m.label? = n.label?)
    (htext : m.text = n.text) : m = n := by
  cases m <;> cases n <;> simp_all [kind, construct?, label?, text]

end Mark

/-! ## Lines -/

/-- Two fragments agree in all but their offsets. -/
structure Fragment.Agrees (f g : Fragment) : Prop where
  kind : f.mark.kind = g.mark.kind
  construct : f.mark.construct? = g.mark.construct?
  label : f.mark.label? = g.mark.label?
  text : f.mark.text = g.mark.text
  line : f.position.line = g.position.line
  column : f.position.column = g.position.column

namespace Fragment

variable {f g : Fragment} {fs gs : List Fragment}

theorem agrees_of_mark_eq (hmark : f.mark = g.mark)
    (hposition : f.position.line = g.position.line ∧ f.position.column = g.position.column) :
    f.Agrees g :=
  ⟨hmark ▸ rfl, hmark ▸ rfl, hmark ▸ rfl, hmark ▸ rfl, hposition.1, hposition.2⟩

/-- The line of a fragment is its pieces and its position. -/
theorem toList_render (f : Fragment) :
    f.render.toList = f.mark.pieces.flatMap Piece.chars ++ f.position.text.toList := by
  rw [← Mark.toList_render]
  simp [render, toString]

theorem newline_notMem_render (h : f.mark.IsLabeled) : '\n' ∉ f.render.toList := by
  rw [toList_render, List.mem_append, List.mem_flatMap]
  rintro (⟨p, hp, hmem⟩ | hmem)
  · exact Piece.newline_notMem_chars (Mark.isFormed_pieces h p hp) hmem
  · exact f.position.newline_notMem_text hmem

/-- Pieces and a position on one line are known, whatever the lines behind it. -/
theorem pieces_append_inj {ps qs : List Piece} {p q : Position} (hps : ∀ x ∈ ps, x.IsFormed)
    (hqs : ∀ x ∈ qs, x.IsFormed)
    (h : ps.flatMap Piece.chars ++ (p.text.toList ++ '\n' :: rest) =
      qs.flatMap Piece.chars ++ (q.text.toList ++ '\n' :: rest')) :
    ps = qs ∧ (p.line = q.line ∧ p.column = q.column) ∧ rest = rest' := by
  induction ps generalizing qs with
  | nil =>
    cases qs with
    | nil => exact ⟨rfl, Position.text_append_inj h⟩
    | cons y qs =>
      obtain ⟨c, cs, hc, hdigit⟩ := p.exists_text_eq
      rw [hc, List.flatMap_cons, List.append_assoc] at h
      exact absurd hdigit (Bool.eq_false_iff.1
        (Piece.isDigit_of_chars (hqs y List.mem_cons_self) h.symm))
  | cons x ps ih =>
    rw [List.forall_mem_cons] at hps
    rw [List.flatMap_cons, List.append_assoc] at h
    cases qs with
    | nil =>
      obtain ⟨c, cs, hc, hdigit⟩ := q.exists_text_eq
      rw [hc] at h
      exact absurd hdigit (Bool.eq_false_iff.1 (Piece.isDigit_of_chars hps.1 h))
    | cons y qs =>
      rw [List.forall_mem_cons] at hqs
      rw [List.flatMap_cons, List.append_assoc] at h
      obtain ⟨rfl, htail⟩ := Piece.chars_append_inj hps.1 hqs.1 h
      obtain ⟨rfl, hposition⟩ := ih hps.2 hqs.2 htail
      exact ⟨rfl, hposition⟩

/-- **A fragment is known from its line**, but for its offset. -/
theorem render_append_inj (hf : f.mark.IsLabeled) (hg : g.mark.IsLabeled)
    (h : f.render.toList ++ '\n' :: rest = g.render.toList ++ '\n' :: rest') :
    f.Agrees g ∧ rest = rest' := by
  rw [toList_render, toList_render, List.append_assoc, List.append_assoc] at h
  obtain ⟨hpieces, hposition, hrest⟩ :=
    pieces_append_inj (Mark.isFormed_pieces hf) (Mark.isFormed_pieces hg) h
  exact ⟨agrees_of_mark_eq (Mark.pieces_inj hf hg hpieces) hposition, hrest⟩

/-- Fragments that agree have the same line. -/
theorem Agrees.render_eq (h : f.Agrees g) : f.render = g.render := by
  have hmark := Mark.eq_of_shown h.kind h.construct h.label h.text
  rw [render, render, Position.text, Position.text, hmark, h.line, h.column]

theorem toList_renderAll (fs : List Fragment) :
    (renderAll fs).toList = fs.flatMap fun f => f.render.toList ++ ['\n'] := by
  simp [renderAll, List.flatMap_map]

theorem toList_renderAll_cons (f : Fragment) (fs : List Fragment) :
    (renderAll (f :: fs)).toList = f.render.toList ++ '\n' :: (renderAll fs).toList := by
  simp [toList_renderAll]

/-- **The lines of a trace are those of its fragments**, and each ends in a newline. -/
theorem splitOn_renderAll (h : ∀ f ∈ fs, f.mark.IsLabeled) :
    (renderAll fs).toList.splitOn '\n' = fs.map (·.render.toList) ++ [[]] := by
  induction fs with
  | nil => rfl
  | cons f fs ih =>
    rw [List.forall_mem_cons] at h
    rw [toList_renderAll_cons,
      List.splitOn_append_cons_self_of_not_mem (newline_notMem_render h.1), ih h.2]
    rfl

/-- **Fragments are known from their text**, but for their offsets. -/
theorem renderAll_eq_iff (hfs : ∀ f ∈ fs, f.mark.IsLabeled) (hgs : ∀ g ∈ gs, g.mark.IsLabeled) :
    renderAll fs = renderAll gs ↔ List.Forall₂ Agrees fs gs := by
  rw [← String.toList_inj]
  induction fs generalizing gs with
  | nil =>
    cases gs with
    | nil => simp
    | cons g gs =>
      refine iff_of_false ?_ nofun
      rw [toList_renderAll_cons]
      simp [toList_renderAll]
  | cons f fs ih =>
    rw [List.forall_mem_cons] at hfs
    rw [toList_renderAll_cons]
    cases gs with
    | nil =>
      refine iff_of_false ?_ nofun
      simp [toList_renderAll]
    | cons g gs =>
      rw [List.forall_mem_cons] at hgs
      rw [toList_renderAll_cons, List.forall₂_cons, ← ih hfs.2 hgs.2]
      constructor
      · exact render_append_inj hfs.1 hgs.1
      · rintro ⟨hagrees, hrest⟩
        rw [hagrees.render_eq, hrest]

end Fragment

/-! ## Traces -/

section Traces

variable {options : Options} {table : LineTable} {c d : Cursor} {fs : List Fragment}
  {construct : NodeKind} {label : String}

/-- A checkpoint that a step shows is the event of the step. -/
theorem Cursor.eq_of_checkpoint_mem_step {event : Event}
    (h : c.step options table event = .ok (fs, d)) {f : Fragment} (hf : f ∈ fs)
    (hmark : f.mark = .checkpoint construct label) : event = .checkpoint construct label := by
  -- of the other steps nothing is dropped with the checkpoints
  have hnone (hdrop : dropCheckpoints fs = fs) : False := by
    have hkept := List.filter_eq_self.1 hdrop f hf
    rw [hmark] at hkept
    cases hkept
  cases event with
  | enter kind place depth =>
    exact (hnone (dropCheckpoints_of_markAt MarkKind.noConfusion (step_enter h).2)).elim
  | leave kind place =>
    exact (hnone (dropCheckpoints_of_markAt MarkKind.noConfusion h)).elim
  | token owner place text => exact (hnone (dropCheckpoints_of_takeToken h)).elim
  | checkpoint owner name =>
    obtain ⟨-, ⟨-, p, -, rfl⟩ | ⟨-, rfl⟩⟩ := step_checkpoint h
    · obtain rfl := List.mem_singleton.1 hf
      obtain ⟨rfl, rfl⟩ := Mark.checkpoint.inj hmark
      rfl
    · cases hf
  | refuse kind place => cases h

/-- A checkpoint that a run shows is one of its events. -/
theorem Cursor.Runs.checkpoint_mem {events : List Event} (h : c.Runs options table events fs d)
    {f : Fragment} (hf : f ∈ fs) (hmark : f.mark = .checkpoint construct label) :
    .checkpoint construct label ∈ events := by
  induction events generalizing c fs with
  | nil =>
    obtain ⟨rfl, -⟩ := h
    cases hf
  | cons event events ih =>
    obtain ⟨gs, c', hs, hstep, hruns, rfl⟩ := h
    rcases List.mem_append.1 hf with hf | hf
    · exact eq_of_checkpoint_mem_step hstep hf hmark ▸ List.mem_cons_self
    · exact List.mem_cons_of_mem _ (ih hruns hf)

/-- The checkpoints of a trace have the names of checkpoints. -/
theorem File.isLabeled_of_trace {file : File} (h : file.trace table options = .ok fs) :
    ∀ f ∈ fs, f.mark.IsLabeled := by
  intro f hf
  obtain ⟨c, hruns, -⟩ := File.trace_eq_ok_iff.1 h
  cases hmark : f.mark with
  | checkpoint construct label =>
    exact Node.isLabel_of_mem_events (.file file) (hruns.checkpoint_mem hf hmark)
  | _ => trivial

end Traces

/-- **The text of a trace is faithful.** It has just one line for each fragment, which is the line of
that fragment, and no line of a fragment holds a newline. Two traces, of whatever files over whatever
texts, have the same text just if they agree in every fragment on the kind, the construct, the label,
the text, the line and the column. -/
theorem renderAll_of_trace {file file' : File} {table table' : LineTable}
    {options options' : Options} {fs gs : List Fragment}
    (hf : file.trace table options = .ok fs) (hg : file'.trace table' options' = .ok gs) :
    (Fragment.renderAll fs).toList.splitOn '\n' = fs.map (·.render.toList) ++ [[]] ∧
      (∀ f ∈ fs, '\n' ∉ f.render.toList) ∧
      (Fragment.renderAll fs = Fragment.renderAll gs ↔ List.Forall₂ Fragment.Agrees fs gs) := by
  have hfs := File.isLabeled_of_trace hf
  have hgs := File.isLabeled_of_trace hg
  exact ⟨Fragment.splitOn_renderAll hfs, fun f hmem => Fragment.newline_notMem_render (hfs f hmem),
    Fragment.renderAll_eq_iff hfs hgs⟩

/-- The lines of the trace of `clauseFile`, beside the trace of another file over another text. -/
theorem renderAll_clauseText :
    ∃ fs gs, clauseFile.trace (.ofString clauseText) {} = .ok fs ∧
      spacedFile.trace (.ofString spacedText) {} = .ok gs ∧
      (Fragment.renderAll fs).toList.splitOn '\n' = fs.map (·.render.toList) ++ [[]] ∧
      (∀ f ∈ fs, '\n' ∉ f.render.toList) ∧
      (Fragment.renderAll fs = Fragment.renderAll gs ↔ List.Forall₂ Fragment.Agrees fs gs) := by
  obtain ⟨fs, h⟩ := exists_trace_clauseFile
  exact ⟨fs, _, h, trace_spacedFile, renderAll_of_trace h trace_spacedFile⟩

end GoTrace
