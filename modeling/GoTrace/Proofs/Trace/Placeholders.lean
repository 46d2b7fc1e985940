import GoTrace.Proofs.Layout.Placeholders
import GoTrace.Proofs.Trace.Faults

/-!
# Traces of trees with placeholders

A tree with a placeholder in it has no trace. Up to the placeholder its events are those of the tree
that it was made from, so when that tree has a trace, the run does not fail before it gets there.
Then it fails with the event that refuses the placeholder, and this names the kind of the
placeholder and the place where the node started (`File.trace_blanked`).
-/

namespace GoTrace

variable {table : LineTable} {options : Options}

/-- A run that gets to a placeholder is refused there. -/
theorem Cursor.run_refuse {before after : List Event} {kind : NodeKind} {place : Offset}
    {c d : Cursor} {fs : List Fragment} (h : c.Runs options table before fs d)
    (made : Array Fragment) :
    c.run options table (before ++ .refuse kind place :: after) made =
      .error (.unsupportedConstruct kind place) :=
  run_eq_error_iff.2 ⟨before, _, after, fs, d, rfl, h, rfl⟩

/-- A file with a placeholder inside has the comments of the file that it was made from. -/
theorem File.comments_of_blanked {file file' : File} {x p : Node} (hp : x.placeholder? = some p)
    (h : Node.Blanked x p (.file file) (.file file')) : file'.comments = file.comments := by
  cases h with
  | here => cases hp
  | part own _ _ _ =>
    have hcomments := congrArg File.comments (Node.file.inj own)
    exact hcomments.symm

/-- **A placeholder is refused where it stands.** If a file has a trace, and one of its expressions,
statements or declarations, anywhere in it, is replaced by the placeholder with the same span, then
the trace fails: the placeholder is not supported at the place where the node started. -/
theorem File.trace_blanked {file file' : File} {fragments : List Fragment} {x p : Node}
    (h : file.trace table options = .ok fragments) (hp : x.placeholder? = some p)
    (hblanked : Node.Blanked x p (.file file) (.file file')) :
    file'.trace table options = .error (.unsupportedConstruct p.kind x.span.start) := by
  obtain ⟨before, after, inner, hevents, hevents'⟩ := hblanked.exists_events 0
  obtain ⟨c, hruns, -⟩ := File.trace_eq_ok_iff.1 h
  rw [File.events, show file.layout.events 0 = _ from hevents] at hruns
  obtain ⟨fs, d, -, hbefore, -⟩ := Cursor.runs_append.1 hruns
  rw [Node.events_placeholder hp] at hevents'
  rw [trace, File.events, show file'.layout.events 0 = _ from hevents',
    comments_of_blanked hp hblanked]
  rw [List.singleton_append, Cursor.run_refuse hbefore]
  rfl

/-- The text of a call with two arguments. -/
def callText : String := "package p\n\nvar x = f(a, b)\n"

/-- The file of `callText`, with `last` for the second argument of the call. -/
def callFile (last : Expr) : File where
  package := .zero
  name := ⟨.ofNat 8, "p"⟩
  decls := [.gen ⟨.ofNat 11, .varKw, none, [.values [⟨.ofNat 15, "x"⟩] [] none (some (.ofNat 17))
    [.call ⟨.ident ⟨.ofNat 19, "f"⟩, .ofNat 20, [.ident ⟨.ofNat 21, "a"⟩, last], [.ofNat 22], none,
      .ofNat 25⟩] []], none⟩]
  comments := []
  span := ⟨.zero, .ofNat 27⟩

/-- With a placeholder for its second argument the call of `callText` is refused there. -/
theorem trace_blanked_callFile :
    ∃ fragments, (callFile (.ident ⟨.ofNat 24, "b"⟩)).trace (.ofString callText) {} = .ok fragments ∧
      (callFile (.bad ⟨.ofNat 24, .ofNat 25⟩)).trace (.ofString callText) {} =
        .error (.unsupportedConstruct .badExpr (.ofNat 24)) := by
  have hok : ((callFile (.ident ⟨.ofNat 24, "b"⟩)).trace (.ofString callText) {}).isOk := by
    decide +kernel
  have hblanked : Node.Blanked (.expr (.ident ⟨.ofNat 24, "b"⟩)) (.expr (.bad ⟨.ofNat 24, .ofNat 25⟩))
      (.file (callFile (.ident ⟨.ofNat 24, "b"⟩))) (.file (callFile (.bad ⟨.ofNat 24, .ofNat 25⟩))) :=
    -- from the file to the declaration, its entry, the call and the argument
    @Node.Blanked.part _ _ _ _ _ _ [_] [] rfl rfl rfl <|
      @Node.Blanked.part _ _ _ _ _ _ [] [] rfl rfl rfl <|
        @Node.Blanked.part _ _ _ _ _ _ [_] [] rfl rfl rfl <|
          @Node.Blanked.part _ _ _ _ _ _ [_, _] [] rfl rfl rfl .here
  rcases htrace : (callFile (.ident ⟨.ofNat 24, "b"⟩)).trace (.ofString callText) {} with
    e | fragments
  · rw [htrace] at hok
    cases hok
  · exact ⟨fragments, rfl, File.trace_blanked htrace rfl hblanked⟩

end GoTrace
