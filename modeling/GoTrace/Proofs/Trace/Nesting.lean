import GoTrace.Proofs.Grammar.Levels
import GoTrace.Proofs.Trace.Complete
import GoTrace.Proofs.Trace.Faults

/-!
# Nesting too deep

Constructs may nest as deep as the options of a trace allow, and that is a bound of its own: the
rules of the grammar bound how deep they call each other, and neither bound follows from the other.
A file whose constructs nest deeper than the options allow has no trace, and a trace that fails for
nesting is one of such a file.

`File.trace_limit` compares two bounds: a file that has a trace under one has the same under
another, or fails there at the first construct that starts too deep.
-/

namespace GoTrace

open String (utf8Len)

variable {options : Options} {table : LineTable}

/-! ## The depth of events -/

/-- Where a construct starts deeper than `limit`. -/
def Event.tooDeep? (limit : Nat) : Event → Option Offset
  | .enter _ place depth => if limit < depth then some place else none
  | _ => none

namespace Layout

/-- No construct in a construct starts deeper than the construct is high. -/
theorem depth_le_of_enter_mem {l : Layout} {kind : NodeKind} {place : Offset} {depth inner : Nat}
    (h : .enter kind place inner ∈ l.events depth) : inner ≤ depth + l.height := by
  induction l using inductionOnParts generalizing depth with
  | _ l ih =>
  cases l with
  | placeholder kind span => cases List.mem_singleton.1 h
  | node kind span rows =>
    rw [events, List.mem_append, List.mem_cons, List.mem_singleton] at h
    rcases h with (h | h) | h
    · obtain ⟨-, -, rfl⟩ := Event.enter.inj h
      rw [height]
      omega
    · rcases Row.of_mem_allEvents h with ⟨part, hpart, h⟩ | ⟨_, _, h⟩ | ⟨_, _, h⟩
      · have hlt := height_lt_of_mem_parts (m := .node kind span rows) hpart
        have hle := ih part hpart h
        omega
      · cases h
      · cases h
    · cases h

/-- **A construct whose events all have their steps is no higher than the options allow.** -/
theorem height_le_of_steps {l : Layout} {depth : Nat} (h : ∀ event ∈ l.events depth,
      ∃ d d' : Cursor, ∃ gs, d.step options table event = .ok (gs, d')) :
    depth + l.height ≤ options.maxDepth := by
  induction l using inductionOnParts generalizing depth with
  | _ l ih =>
  cases l with
  | placeholder kind span =>
    obtain ⟨d, d', gs, hstep⟩ := h _ (List.mem_singleton_self _)
    cases hstep
  | node kind span rows =>
    have hdepth : depth + 1 ≤ options.maxDepth := by
      obtain ⟨d, d', gs, hstep⟩ := h (.enter kind span.start (depth + 1)) (by simp [events])
      exact (Cursor.step_enter hstep).1
    have hparts : ∀ m ∈ (node kind span rows).parts, m.height ≤ options.maxDepth - (depth + 1) := by
      intro m hm
      have hle := ih m hm fun event hevent => h event (events_subset_of_mem_parts hm hevent)
      omega
    have hheight := height_le_of_parts hparts
    omega

end Layout

/-- **A file that has a trace nests no deeper than the options allow.** -/
theorem height_le_of_trace {file : File} {fragments : List Fragment}
    (h : file.trace table options = .ok fragments) : file.layout.height ≤ options.maxDepth := by
  obtain ⟨c, hruns, -⟩ := File.trace_eq_ok_iff.1 h
  have hle : 0 + file.layout.height ≤ options.maxDepth :=
    Layout.height_le_of_steps fun _ => hruns.exists_step
  rwa [Nat.zero_add] at hle

/-! ## Another bound -/

namespace Cursor

/-- A step under one bound is a step under another, unless its construct starts deeper than that. -/
theorem step_limit {event : Event} {c d : Cursor} {fs : List Fragment}
    (h : c.step options table event = .ok (fs, d)) (limit : Nat) :
    c.step { options with maxDepth := limit } table event =
      match event.tooDeep? limit with
      | none => .ok (fs, d)
      | some place => .error (.nestingTooDeep limit place) := by
  cases event with
  | enter kind place depth =>
    rw [step, Event.tooDeep?]
    by_cases hdeep : limit < depth
    · rw [if_pos hdeep, if_pos hdeep]
    · rw [if_neg hdeep, if_neg hdeep]
      exact (step_enter h).2
  | leave kind place => exact h
  | token owner place text => exact h
  | checkpoint owner label => exact h
  | refuse kind place => cases h

/-- A run under one bound is a run under another, up to the first construct that starts deeper than
that. -/
theorem run_limit {events : List Event} {c c' : Cursor} {fs : List Fragment}
    (h : c.Runs options table events fs c') (limit : Nat) (made : Array Fragment) :
    c.run { options with maxDepth := limit } table events made =
      match events.findSome? (Event.tooDeep? limit) with
      | none => .ok (made ++ fs, c')
      | some place => .error (.nestingTooDeep limit place) := by
  induction events generalizing c fs made with
  | nil =>
    obtain ⟨rfl, rfl⟩ := h
    simp [run]
  | cons event events ih =>
    obtain ⟨gs, d, hs, hstep, hruns, rfl⟩ := h
    rw [run, step_limit hstep, List.findSome?_cons]
    cases event.tooDeep? limit with
    | some place => rfl
    | none =>
      rw [← append_append]
      exact ih hruns (made ++ gs)

end Cursor

/-- **A file that has a trace has the same under another bound**, or fails there at the first
construct that starts deeper than that. -/
theorem File.trace_limit {file : File} {fragments : List Fragment}
    (h : file.trace table options = .ok fragments) (limit : Nat) :
    file.trace table { options with maxDepth := limit } =
      match file.events.findSome? (Event.tooDeep? limit) with
      | none => .ok fragments
      | some place => .error (.nestingTooDeep limit place) := by
  obtain ⟨c, hruns, hpending⟩ := trace_eq_ok_iff.1 h
  have hrun := Cursor.run_limit hruns limit #[]
  cases hdeep : file.events.findSome? (Event.tooDeep? limit) with
  | none =>
    rw [hdeep] at hrun
    obtain ⟨gs, hruns, hgs⟩ := Cursor.run_eq_ok_iff.1 hrun
    obtain rfl : fragments = gs := by simpa using hgs
    exact trace_eq_ok_iff.2 ⟨c, hruns, hpending⟩
  | some place =>
    rw [hdeep] at hrun
    rw [trace, hrun]
    rfl

/-- A file that has a trace under one bound fails for its nesting under one that it exceeds. -/
theorem File.exists_nestingTooDeep {file : File} {fragments : List Fragment}
    (h : file.trace table options = .ok fragments) {limit : Nat}
    (hdeep : limit < file.layout.height) :
    ∃ place, file.trace table { options with maxDepth := limit } =
      .error (.nestingTooDeep limit place) := by
  have htrace := trace_limit h limit
  split at htrace
  · exact absurd (height_le_of_trace htrace) (Nat.not_le.2 hdeep)
  · rename_i place _
    exact ⟨place, htrace⟩

/-! ## Files that are parsed -/

/-- A file of a text without stray dots fails for its nesting if it is higher than the options
allow. -/
theorem exists_nestingTooDeep_of_dotsLast {text : String} {file : File}
    (hparse : parse text = .ok file) (hdeep : options.maxDepth < file.layout.height)
    (hlast : dotsLast (written (tokens text))) : ∃ place,
      file.trace (.ofString text) options = .error (.nestingTooDeep options.maxDepth place) := by
  -- the file has a trace where the bound is its own height
  have ⟨fragments, h⟩ : ∃ fragments, file.trace (.ofString text)
      { options with maxDepth := file.layout.height } = .ok fragments :=
    exists_trace_of_dotsLast hparse (Nat.le_refl _) hlast
  exact File.exists_nestingTooDeep h hdeep

/-- **When nesting fails a trace.** A file that a text spells fails to have a trace for its nesting
only if it is higher than the options allow, and the error says what they allow. A file that is
higher has no trace, and it fails for its nesting if dots in the text stand behind last arguments
only. The rules of the grammar allow at most seven levels for each of their own, so such a file is
no higher than these levels and its links together. -/
theorem nestingTooDeep_of_parse {text : String} {file : File} {options : Options}
    (hparse : parse text = .ok file) :
    (∀ limit place, file.trace (.ofString text) options = .error (.nestingTooDeep limit place) →
      limit = options.maxDepth ∧ options.maxDepth < file.layout.height) ∧
    (options.maxDepth < file.layout.height →
      (∀ fragments, file.trace (.ofString text) options ≠ .ok fragments) ∧
      (dotsLast (written (tokens text)) → ∃ place,
        file.trace (.ofString text) options = .error (.nestingTooDeep options.maxDepth place))) ∧
    file.layout.levels ≤ 7 * maxNesting + 5 ∧
    file.layout.height ≤ file.layout.levels + file.layout.links := by
  refine ⟨fun limit place h => ?_, fun hdeep => ⟨fun fragments h => ?_, fun hlast => ?_⟩,
    levels_le_of_parse hparse, file.layout.height_le⟩
  · rcases File.trace_eq_error h with ⟨_, _, he⟩ | ⟨_, _, _, hmem, hdepth, he⟩ | ⟨_, _, _, he⟩
    · cases he
    · obtain ⟨rfl, rfl⟩ := TraceError.nestingTooDeep.inj he
      have hle := Layout.depth_le_of_enter_mem hmem
      exact ⟨rfl, by omega⟩
    · cases he
  · exact absurd (height_le_of_trace h) (Nat.not_le.2 hdeep)
  · exact exists_nestingTooDeep_of_dotsLast hparse hdeep hlast

/-! ## Deep texts -/

/-- The tokens of a text that is given by its characters. -/
private theorem tokens_ofList {cs : List Char} (h : utf8Len cs ≤ maxOffset) :
    tokens (String.ofList cs) = (Lexer.reading cs 0 false).tokens := by
  rw [tokens, Lexer.ofString, String.toList_ofList, if_pos]
  rwa [utf8ByteSize_eq, String.toList_ofList]

/-- The characters of a text with `n` function types, each a parameter of the one around it. -/
def nestedChars (n : Nat) : List Char :=
  "package p\n\nvar f ".toList ++ (List.replicate n "func(".toList).flatten ++ List.replicate n ')'

/-- A text with as many function types inside each other as the default bound refuses: each adds
itself, its list of parameters and a parameter. The grammar allows half as many again. -/
def deepText : String := String.ofList (nestedChars 85)

set_option maxRecDepth 10000 in
/-- The text spells a file that is higher than the default bound allows. -/
private theorem exists_parse_deepText : ∃ file, parse deepText = .ok file ∧
    ({} : Options).maxDepth < file.layout.height ∧ dotsLast (written (tokens deepText)) := by
  have htokens : tokens deepText = (Lexer.reading (nestedChars 85) 0 false).tokens :=
    tokens_ofList (by decide +kernel)
  have hfacts : ((parseTokens (Lexer.reading (nestedChars 85) 0 false).tokens).toOption.any
      fun file => decide (({} : Options).maxDepth < file.layout.height) &&
        dotsLast (written (Lexer.reading (nestedChars 85) 0 false).tokens)) := by decide +kernel
  rw [← htokens, ← parse] at hfacts
  obtain ⟨file, hfile, hfacts⟩ := (Option.any_eq_true _ _).1 hfacts
  obtain ⟨hdeep, hlast⟩ := Bool.and_eq_true_iff.1 hfacts
  exact ⟨file, ok_of_toOption hfile, of_decide_eq_true hdeep, hlast⟩

/-- `deepText` spells a file, which has no trace under the default options as it nests too deep. -/
theorem nestingTooDeep_deepText : ∃ file, parse deepText = .ok file ∧
    (∀ limit place, file.trace (.ofString deepText) {} = .error (.nestingTooDeep limit place) →
      limit = ({} : Options).maxDepth ∧ ({} : Options).maxDepth < file.layout.height) ∧
    (({} : Options).maxDepth < file.layout.height →
      (∀ fragments, file.trace (.ofString deepText) {} ≠ .ok fragments) ∧
      (dotsLast (written (tokens deepText)) → ∃ place, file.trace (.ofString deepText) {} =
        .error (.nestingTooDeep ({} : Options).maxDepth place))) ∧
    file.layout.levels ≤ 7 * maxNesting + 5 ∧
    file.layout.height ≤ file.layout.levels + file.layout.links := by
  obtain ⟨file, hparse, -⟩ := exists_parse_deepText
  exact ⟨file, hparse, nestingTooDeep_of_parse hparse⟩

/-- The bound of the grammar does not keep files within the default bound: `deepText` spells a file
that nests too deep for a trace under the default options. -/
theorem exists_nestingTooDeep_deepText : ∃ file place, parse deepText = .ok file ∧
    ({} : Options).maxDepth < file.layout.height ∧ file.trace (.ofString deepText) {} =
      .error (.nestingTooDeep ({} : Options).maxDepth place) := by
  obtain ⟨file, hparse, hdeep, hlast⟩ := exists_parse_deepText
  obtain ⟨place, htrace⟩ := exists_nestingTooDeep_of_dotsLast hparse hdeep hlast
  exact ⟨file, place, hparse, hdeep, htrace⟩

end GoTrace
