import GoTrace.Proofs.Grammar.Dots
import GoTrace.Proofs.Grammar.Plain
import GoTrace.Proofs.Trace.Faithful
import GoTrace.Proofs.Trace.Walk

/-!
# Which files have a trace

A reading without the rule for calls is a run of the cursor: each row takes the cursor from where it
is to the next word and on, so a run through the rows of a file succeeds as soon as constructs may
nest as deep as they do. That leaves the files of texts with stray dots, and those have no trace.
-/

namespace GoTrace

open String (utf8Len)

variable {options : Options} {table : LineTable}

/-! ## Runs that succeed -/

/-- A row that stands for nothing can be passed. -/
private theorem exists_runs_of_isSilent (options : Options) (owner : NodeKind) (depth : Nat)
    {row : Row} {c : Cursor} {ws : List (Offset × String)} (h : row.isSilent)
    (hready : c.Ready table ws) :
    ∃ fs, c.Runs options table (row.events owner depth) fs c := by
  rcases Row.events_of_isSilent owner depth h with h | ⟨label, h⟩
  · rw [h]
    exact ⟨[], rfl, rfl⟩
  · rw [h]
    obtain ⟨p, hp⟩ := hready.exists_resolve
    cases hcheckpoints : options.checkpoints with
    | true =>
      refine ⟨[⟨.checkpoint owner label, p⟩], Cursor.runs_singleton.2 ?_⟩
      rw [Cursor.step, if_pos hcheckpoints]
      exact bind_eq_ok_iff.2 ⟨p, hp, rfl⟩
    | false =>
      refine ⟨[], Cursor.runs_singleton.2 ?_⟩
      rw [Cursor.step, if_neg (by rw [hcheckpoints]; exact Bool.false_ne_true)]
      rfl

/-- **A reading without calls is a run of the cursor.** -/
theorem exists_runs_of_reads (options : Options) {calls stray : Bool} {rows : List Row}
    {p q : Point} (h : ReadsRows calls stray rows p q) (hcalls : calls = false)
    (hsize : table.size ≤ maxOffset) (owner : NodeKind) (depth : Nat) {c : Cursor}
    (hplace : c.place = p.place) (hready : c.Ready table (words p.state.tokens)) (hordered : Ordered p.state.tokens)
    (hdepth : depth + Row.heights rows ≤ options.maxDepth) :
    ∃ fs c', c.Runs options table (Row.allEvents owner depth rows) fs c' ∧ c'.place = q.place ∧
      c'.Ready table (words q.state.tokens) := by
  induction h generalizing owner depth c with
  | done => exact ⟨[], c, ⟨rfl, rfl⟩, hplace, hready⟩
  | @silent _ _ row rows p q hsilent _ ih =>
    rw [Row.heights] at hdepth
    obtain ⟨fs, hfs⟩ := exists_runs_of_isSilent options owner depth hsilent hready
    obtain ⟨gs, c', hgs, hplace', hready'⟩ := ih hcalls owner depth hplace hready hordered (by omega)
    exact ⟨fs ++ gs, c', Cursor.runs_append.2 ⟨fs, c, gs, hfs, hgs, rfl⟩, hplace', hready'⟩
  | @word _ _ row rows p q st kind place text hrow h hkind htext _ _ ih =>
    rw [Row.heights] at hdepth
    rw [h.words hkind, htext] at hready
    obtain ⟨_, htaken⟩ := h.consumes
    obtain ⟨fs, d, hfs, hd, hready⟩ := hready.exists_takeToken hsize owner
    obtain ⟨gs, c', hgs, hplace', hready'⟩ :=
      ih hcalls owner depth hd hready (htaken.ordered hordered) (by omega)
    refine ⟨fs ++ gs, c', ?_, hplace', hready'⟩
    rw [Row.allEvents, Row.events_of_word? hrow]
    exact ⟨fs, d, gs, hfs, hgs, rfl⟩
  | @child _ _ kind span inner rows p q st hopens hinner _ ihinner ih =>
    rw [Row.heights, Row.height, Layout.height] at hdepth
    obtain ⟨_, htaken⟩ := hinner.consumes
    obtain ⟨text, ws, hwords⟩ := hopens.words
    obtain ⟨fs, d, henter, hd, hready⟩ :=
      hready.exists_markAt (by rw [hwords]; rfl) (.nodeStart kind)
    obtain ⟨gs, d', hgs, hd', hready⟩ :=
      ihinner hcalls kind (depth + 1) hd hready hordered (by omega)
    obtain ⟨hs, hleave⟩ := hready.exists_markHere (.nodeEnd kind)
    rw [hd'] at hleave
    obtain ⟨ks, c', hks, hplace', hready'⟩ :=
      ih hcalls owner depth hd' hready (htaken.ordered hordered) (by omega)
    have hstep : c.step options table (.enter kind span.start (depth + 1)) = .ok (fs, d) := by
      rw [Cursor.step, if_neg (by omega)]
      exact henter
    refine ⟨(fs ++ (gs ++ hs)) ++ ks, c', ?_, hplace', hready'⟩
    rw [Row.allEvents, Row.events, Layout.events]
    refine Cursor.runs_append.2 ⟨_, d', ks, ⟨fs, d, _, hstep, ?_, rfl⟩, hks, rfl⟩
    exact Cursor.runs_append.2 ⟨gs, d', hs, hgs, Cursor.runs_singleton.2 hleave, rfl⟩
  | listDone _ ih =>
    rw [Row.heights] at hdepth
    exact ih hcalls owner depth hplace hready hordered (by omega)
  | listItem rest ih =>
    rw [rest.events_listItem hordered]
    rw [Row.heights_listItem] at hdepth
    exact ih hcalls owner depth hplace hready hordered hdepth
  | listComma rest ih =>
    rw [rest.events_listComma hordered]
    rw [Row.heights_listComma] at hdepth
    exact ih hcalls owner depth hplace hready hordered hdepth
  | listSkip h hkind _ ih =>
    rw [words_of_semicolon h hkind] at hready
    exact ih hcalls owner depth hplace hready (h.consumes.ordered hordered) hdepth
  | call _ _ _ _ _ _ _ _ _ _ _ => cases hcalls

/-- Behind the end of the text no comments are pending. -/
private theorem pending_of_ready {c : Cursor} (h : c.Ready table [])
    (hplace : c.place.toNat = table.size) : c.pending = [] := by
  obtain ⟨front, hfront, hspells⟩ := h
  cases hpending : c.pending with
  | nil => rfl
  | cons d pending =>
    rw [hpending] at hspells
    cases hspells with
    | comment htext _ hfirst _ _ _ =>
      have hpos := utf8Len_pos_of_first hfirst
      rw [hplace, LineTable.size, utf8ByteSize_eq, htext] at hfront
      simp only [String.utf8Len_append] at hfront
      omega

/-- **A file that a text without stray dots spells has a trace**, if constructs may nest as deep as
in the file. -/
theorem exists_trace_of_dotsLast {text : String} {file : File} (hparse : parse text = .ok file)
    (hdepth : file.layout.height ≤ options.maxDepth) (hlast : dotsLast (written (tokens text))) :
    ∃ fragments, file.trace (.ofString text) options = .ok fragments := by
  obtain ⟨rows, q, hlayout, hstart, hstop, hrows, hend, hspells⟩ := reads_of_parse hparse
  have hsize : (LineTable.ofString text).size ≤ maxOffset := by
    rw [LineTable.size, LineTable.ofString, ← hstop]
    exact file.span.stop.le_max
  have hordered : Ordered (tokens text) := hspells.ordered
  have hready : (Cursor.atStart file.comments).Ready (.ofString text) (words (tokens text)) :=
    ⟨[], rfl, hspells⟩
  rw [hlayout, Layout.height] at hdepth
  obtain ⟨fs, henter⟩ := hready.exists_markHere (.nodeStart .file)
  obtain ⟨gs, d, hgs, hd, hready⟩ := exists_runs_of_reads options
    (hrows.plain hordered hlast) rfl hsize .file 1 rfl hready hordered (by omega)
  rw [hend] at hready
  obtain ⟨hs, c, hleave, hc, hready⟩ := hready.exists_markAt hstop (.nodeEnd .file)
  have hstep : (Cursor.atStart file.comments).step options (.ofString text)
      (.enter .file file.span.start 1) = .ok (fs, Cursor.atStart file.comments) := by
    rw [Cursor.step, if_neg (by omega), hstart]
    exact henter
  have hpending := pending_of_ready hready (by rw [hc]; exact hstop)
  refine ⟨fs ++ (gs ++ hs), File.trace_eq_ok_iff.2 ⟨c, ?_, hpending⟩⟩
  rw [File.events, hlayout, Layout.events]
  refine ⟨fs, _, _, hstep, Cursor.runs_append.2 ⟨gs, d, hs, hgs, ?_, rfl⟩, rfl⟩
  exact Cursor.runs_singleton.2 hleave

/-! ## Stray dots -/

/-- The tokens at stray dots are three dots, a comma, and no closing bracket. -/
private theorem exists_of_strayDots {ts : List Token} (h : strayDots ts) :
    ∃ dots comma next us, ts = dots :: comma :: next :: us ∧ dots.kind = .operator .ellipsis ∧
      comma.kind = .operator .comma ∧ next.kind ≠ .operator .rparen := by
  rcases ts with _ | ⟨dots, _ | ⟨comma, _ | ⟨next, us⟩⟩⟩ <;> simp [strayDots] at h
  exact ⟨dots, comma, next, us, rfl, h.1.1, h.1.2, h.2⟩

/-- **A text whose file has a trace has no stray dots.** -/
theorem dotsLast_of_trace {text : String} {file : File} {fragments : List Fragment}
    (hparse : parse text = .ok file) (h : file.trace (.ofString text) options = .ok fragments) :
    dotsLast (written (tokens text)) := by
  obtain ⟨rows, q, hlayout, -, -, hrows, -, hspells⟩ := reads_of_parse hparse
  have hordered : Ordered (tokens text) := hspells.ordered
  have hclosed := (hrows.closed hordered (List.suffix_refl _)).2 rfl .file 1
  have hwords := words_of_events hparse h
  rw [File.events, hlayout, Layout.words_node] at hwords
  rw [hwords] at hclosed
  by_contra hstray
  obtain ⟨us, vs, hcut, hstray⟩ := exists_strayDots (Bool.eq_false_of_not_eq_true hstray)
  obtain ⟨dots, comma, next, vs, rfl, hdots, hcomma, hnext⟩ := exists_of_strayDots hstray
  rw [words, hcut, List.map_append] at hclosed
  have hspelling : dots.word.2 = "..." := by
    rw [Token.word, hdots]
    rfl
  -- the bracket would be the comma or the token behind it
  obtain ⟨w, hw, hcloses⟩ := hclosed.of_append.1 hspelling ⟨us, dots, _, hcut, rfl, hstray⟩
  have hcut' : written (tokens text) = us ++ [dots] ++ comma :: next :: vs := by
    rw [hcut, List.append_assoc, List.singleton_append]
  have hcut'' : written (tokens text) = us ++ [dots, comma] ++ next :: vs := by
    rw [hcut, List.append_assoc]
    rfl
  have hw' : w = comma.word ∨ w = next.word := by simpa using hw
  rcases hw' with rfl | rfl
  · exact not_closesAt hordered hcut' (by rw [hcomma]; decide) hcloses
  · exact not_closesAt hordered hcut'' hnext hcloses

/-- **Just the files without stray dots have traces.** Where a text spells a file and constructs
may nest as deep as in the file, the file has a trace over the text if and only if dots in the text
are nowhere followed by a comma and a further argument. -/
theorem exists_trace_iff_dotsLast {text : String} {file : File} {options : Options}
    (hparse : parse text = .ok file) (hdepth : file.layout.height ≤ options.maxDepth) :
    (∃ fragments, file.trace (.ofString text) options = .ok fragments) ↔
      dotsLast (written (tokens text)) :=
  ⟨fun ⟨_, h⟩ => dotsLast_of_trace hparse h, exists_trace_of_dotsLast hparse hdepth⟩

/-- The file of `spreadText` nests within the default bound, and has a trace as its dots are last.
-/
theorem exists_trace_iff_dotsLast_spreadText :
    ∃ file, parse spreadText = .ok file ∧ file.layout.height ≤ ({} : Options).maxDepth ∧
      ((∃ fragments, file.trace (.ofString spreadText) {} = .ok fragments) ↔
        dotsLast (written (tokens spreadText))) := by
  obtain ⟨file, -, hparse, -⟩ := exists_trace_spreadText
  have hdepth : ((parse spreadText).toOption.all fun file =>
      file.layout.height ≤ ({} : Options).maxDepth) := by decide +kernel
  rw [hparse] at hdepth
  have hdepth : file.layout.height ≤ ({} : Options).maxDepth := of_decide_eq_true hdepth
  exact ⟨file, hparse, hdepth, exists_trace_iff_dotsLast hparse hdepth⟩

/-- A text with a call that has a further argument behind the dots. -/
def strayText : String := "package p\n\nfunc f() \x7b\n\tg(a..., b)\n\x7d\n"

/-- Nesting within the bound is not enough: the file of `strayText` nests within the default bound,
and has no trace. -/
theorem not_forall_exists_trace :
    ¬∀ (text : String) (file : File) (options : Options), parse text = .ok file →
      file.layout.height ≤ options.maxDepth →
      ∃ fragments, file.trace (.ofString text) options = .ok fragments := by
  intro hall
  have hfails : ((parse strayText).toOption.any fun file =>
      decide (file.layout.height ≤ ({} : Options).maxDepth) &&
        !(file.trace (.ofString strayText) {}).isOk) := by decide +kernel
  cases hparse : parse strayText with
  | error e =>
    rw [hparse] at hfails
    cases hfails
  | ok file =>
    rw [hparse] at hfails
    obtain ⟨hdepth, hnone⟩ := Bool.and_eq_true_iff.1 hfails
    obtain ⟨fragments, h⟩ := hall strayText file {} hparse (of_decide_eq_true hdepth)
    rw [h] at hnone
    cases hnone

end GoTrace
