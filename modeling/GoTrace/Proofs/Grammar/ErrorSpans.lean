import GoTrace.Proofs.Grammar.BlameRules
import GoTrace.Proofs.Grammar.Places

/-!
# Where a text is no file

The error for a text that spells no file lies in the text: its span is that of a token, or of an
expression or a statement that has been read (`Blamed`), so its ends are in order and between
characters (`span_of_parse_error`). Where all tokens are taken, the end of the last one is blamed,
which is the end of the text and the span of the token for it. The line and column of an error can
therefore always be told.
-/

namespace GoTrace

section

variable {text : String} (hsize : text.utf8ByteSize ≤ maxOffset)

include hsize

/-- The last token of a text is its end. -/
theorem eof_of_tokens_eq {before : List Token} {t : Token} (htokens : tokens text = before ++ [t]) :
    t.kind = .eof := by
  have hstands := Lexer.stands_ofString hsize
  rw [utf8ByteSize_eq] at hsize
  obtain ⟨_, rest, offset, l, -, -, hnil, hl⟩ := Lexer.exists_behind hstands hsize htokens
  by_contra heof
  rw [if_neg heof] at hl
  obtain ⟨u, l', -, hmore⟩ := Lexer.tokens_reading rest offset t.kind.endsStatement
  rw [hl, hmore] at hnil
  cases hnil

/-- Where all tokens of a text are taken, the end of the last one is the span of the end of the
text. -/
theorem exists_token_of_reaches {st : ParseState}
    (h : ParseState.Reaches ⟨tokens text, #[], .zero⟩ st) (hnil : st.tokens = []) :
    ∃ t ∈ tokens text, Span.empty st.lastStop = t.span := by
  obtain ⟨ts, hts⟩ := h
  have htokens : tokens text = ts := by rw [← List.append_nil ts, ← hnil, ← hts.tokens]
  rcases List.eq_nil_or_concat' ts with rfl | ⟨before, t, rfl⟩
  · -- there are tokens, so some have been taken
    rw [tokens, Lexer.ofString, if_pos hsize] at htokens
    obtain ⟨t, l, -, hfirst⟩ := Lexer.tokens_reading text.toList 0 false
    cases hfirst.symm.trans htokens
  · have ht : t ∈ tokens text := htokens ▸ List.mem_append_right before List.mem_cons_self
    have heof := eof_of_tokens_eq hsize htokens
    have hempty := start_eq_stop_of_mem_tokens hsize ht (by rw [heof]; rfl)
    obtain ⟨st₁, -, hlast⟩ := hts.split
    cases hlast with
    | cons htakes hdone =>
      cases hdone
      refine ⟨t, ht, ?_⟩
      rw [htakes.lastStop]
      exact Span.ext hempty.symm rfl

/-- A construct that is read behind some tokens of a text lies in the text, with its ends between
characters. -/
theorem Layout.Reads.isValid {l : Layout} {st st' : ParseState} (h : l.Reads st st')
    (hst : ParseState.Reaches ⟨tokens text, #[], .zero⟩ st) : l.start ≤ l.stop ∧
      String.Pos.Raw.IsValid text ⟨l.start.toNat⟩ ∧
      String.Pos.Raw.IsValid text ⟨l.stop.toNat⟩ := by
  obtain ⟨ts, hts⟩ := hst
  have htaken := hts.consumes
  have hstarts : ∀ {place}, TokenStarts st.tokens place →
      String.Pos.Raw.IsValid text ⟨place.toNat⟩ := by
    rintro place ⟨t, ht, -, rfl⟩
    exact (isValid_of_mem_tokens hsize (htaken.subset ht)).2.1
  have hstops : ∀ {place}, TokenStops st.tokens place →
      String.Pos.Raw.IsValid text ⟨place.toNat⟩ := by
    rintro place ⟨t, ht, -, -, -, rfl⟩
    exact (isValid_of_mem_tokens hsize (htaken.subset ht)).2.2
  obtain ⟨hstart, hle, hstop⟩ := h.ends (htaken.spaced (spaced_of_size hsize))
  exact ⟨hle, hstarts hstart, hstop.elim hstops hstarts⟩

/-- In a text, what may be blamed is a token, or an expression or statement that is read. -/
theorem Blamed.cases_of_size {span : Span} (h : Blamed ⟨tokens text, #[], .zero⟩ span) :
    (∃ t ∈ tokens text, span = t.span) ∨
      ∃ ts st st', Passes ⟨tokens text, #[], .zero⟩ ts st ∧
        ((∃ x : Expr, span = x.span ∧ x.layout.Reads st st') ∨
          ∃ x : Stmt, span = x.span ∧ x.layout.Reads st st') := by
  cases h with
  | token ht => exact .inl ⟨_, ht, rfl⟩
  | last hst hnil => exact .inl (exists_token_of_reaches hsize hst hnil)
  | @expr x st st' hst hreads =>
    obtain ⟨ts, hts⟩ := hst
    exact .inr ⟨ts, st, st', hts, .inl ⟨x, rfl, hreads⟩⟩
  | @stmt x st st' hst hreads =>
    obtain ⟨ts, hts⟩ := hst
    exact .inr ⟨ts, st, st', hts, .inr ⟨x, rfl, hreads⟩⟩

end

/-- The error for a text comes from the rule for files, and blames what may be blamed. -/
theorem blamed_of_parse_error {text : String} {e : ParseError} (h : parse text = .error e) :
    Blamed ⟨tokens text, #[], .zero⟩ e.span := by
  have hfails : (Grammar.file (.level maxNesting)).Fails ⟨true⟩ ⟨tokens text, #[], .zero⟩ e := by
    rw [parse, parseTokens] at h
    split at h
    · cases h
    · rename_i hrun
      rw [← Except.error.inj h]
      exact hrun
  exact (Parser.Blames.blamesAt ParseState.reaches_self).blamed hfails

/-- **The error for a text that spells no file lies in the text.** Its span is that of a token, or
of an expression or a statement that is read behind some tokens, where an expression may be a type
or a name. The ends of the span are in order and between characters, and the start has a line and a
column, which stand in front of the message. -/
theorem span_of_parse_error {text : String} {e : ParseError} (hsize : text.utf8ByteSize ≤ maxOffset)
    (h : parse text = .error e) :
    e.span.start ≤ e.span.stop ∧ e.span.stop.toNat ≤ text.utf8ByteSize ∧
      String.Pos.Raw.IsValid text ⟨e.span.start.toNat⟩ ∧
      String.Pos.Raw.IsValid text ⟨e.span.stop.toNat⟩ ∧
      (∃ p, (LineTable.ofString text).position? e.span.start = some p ∧
        e.located (.ofString text) = s!"{p.line}:{p.column}: {e.message}") ∧
      ((∃ t ∈ tokens text, e.span = t.span) ∨
        ∃ ts st st', Passes ⟨tokens text, #[], .zero⟩ ts st ∧
          ((∃ x : Expr, e.span = x.span ∧ x.layout.Reads st st') ∨
            ∃ x : Stmt, e.span = x.span ∧ x.layout.Reads st st')) := by
  have hblamed := Blamed.cases_of_size hsize (blamed_of_parse_error h)
  obtain ⟨hle, hstart, hstop⟩ : e.span.start ≤ e.span.stop ∧
      String.Pos.Raw.IsValid text ⟨e.span.start.toNat⟩ ∧
      String.Pos.Raw.IsValid text ⟨e.span.stop.toNat⟩ := by
    rcases hblamed with ⟨t, ht, hspan⟩ | ⟨ts, st, st', hts, ⟨x, hspan, hreads⟩ | ⟨x, hspan, hreads⟩⟩
    · exact hspan ▸ isValid_of_mem_tokens hsize ht
    · exact hspan ▸ hreads.isValid hsize ⟨ts, hts⟩
    · exact hspan ▸ hreads.isValid hsize ⟨ts, hts⟩
  refine ⟨hle, hstop.le_utf8ByteSize, hstart, hstop, ?_, hblamed⟩
  have hcut := isValid_iff_cut.1 (String.Pos.Raw.isValid_eq_true_iff.2 hstart)
  obtain ⟨p, hp⟩ := Option.isSome_iff_exists.1
    (LineTable.position?_isSome_iff (t := .ofString text).2 hcut)
  refine ⟨p, hp, ?_⟩
  rw [ParseError.located, hp]
  rfl

/-- A deferred expression that is no call, with a character of two bytes in it. -/
def deferText : String := "package p\n\nfunc f() \x7b\n\tdefer a + \"é\"\n\x7d\n"

/-- In `deferText` the whole expression is blamed, which is no token. -/
theorem span_of_parse_error_deferText : deferText.utf8ByteSize ≤ maxOffset ∧
    ∃ e, parse deferText = .error e ∧ e.span = ⟨.ofNat 29, .ofNat 37⟩ ∧
      e.located (.ofString deferText) = "4:8: expression in defer must be a function call" ∧
      String.Pos.Raw.IsValid deferText ⟨37⟩ ∧
      ∃ ts st st', Passes ⟨tokens deferText, #[], .zero⟩ ts st ∧
        ((∃ x : Expr, e.span = x.span ∧ x.layout.Reads st st') ∨
          ∃ x : Stmt, e.span = x.span ∧ x.layout.Reads st st') := by
  have hsize : deferText.utf8ByteSize ≤ maxOffset := by decide +kernel
  have hparsed : (match parse deferText with
      | .ok _ => none
      | .error e => some e) = some ⟨.notACall .deferKw, ⟨.ofNat 29, .ofNat 37⟩⟩ := by decide +kernel
  have htokens : (tokens deferText).all (·.span ≠ ⟨.ofNat 29, .ofNat 37⟩) := by decide +kernel
  have hlocated : ParseError.located ⟨.notACall .deferKw, ⟨.ofNat 29, .ofNat 37⟩⟩
      (.ofString deferText) = "4:8: expression in defer must be a function call" := by
    decide +kernel
  cases h : parse deferText with
  | ok file =>
    rw [h] at hparsed
    cases hparsed
  | error e =>
    rw [h] at hparsed
    obtain rfl := Option.some.inj hparsed
    obtain ⟨-, -, -, hstop, -, ⟨t, ht, hspan⟩ | hread⟩ := span_of_parse_error hsize h
    · exact absurd hspan.symm (of_decide_eq_true (List.all_eq_true.1 htokens t ht))
    · exact ⟨hsize, _, rfl, rfl, hlocated, hstop, hread⟩

end GoTrace
