import GoTrace.Proofs.Grammar.File
import GoTrace.Proofs.Grammar.LocalRules

/-!
# The comments of a file, and its end

The parser reads a list of tokens up to the first one for the end of the text. All comments up to
there belong to the file, each once and in order; what is behind the end is not looked at, since all
rules are local and the end is not written.
-/

namespace GoTrace

/-- Tokens that are taken in one state are taken in another in which they are next. -/
theorem Passes.again {st st' st₀ : ParseState} {ts rest : List Token} (h : Passes st ts st')
    (htokens : st₀.tokens = ts ++ rest) : ∃ st₀', Passes st₀ ts st₀' ∧ st₀'.tokens = rest := by
  induction h generalizing st₀ with
  | nil => exact ⟨st₀, .nil, htokens⟩
  | @cons st st₁ st' t ts h _ ih =>
    have ht : Takes st₀ t ⟨ts ++ rest, st₀.comments ++ t.comments, t.span.stop⟩ :=
      ⟨htokens, rfl, rfl, h.noError⟩
    have htokens' : (ParseState.mk (ts ++ rest) (st₀.comments ++ t.comments) t.span.stop).tokens =
        ts ++ rest := rfl
    obtain ⟨st₀', hpasses, hrest⟩ := ih htokens'
    exact ⟨st₀', .cons ht hpasses, hrest⟩

namespace Grammar

open GoTrace.Parser

variable {rules : Nested} {ctx : ParseContext} {st st' : ParseState}

/-- What a file has in front of its end. -/
def fileFront (rules : Nested) : Parser (Offset × Ident × List Decl) := do
  let package ← expectKeyword .packageKw
  let name ← expectIdent
  endOfDecl
  let decls ← many atEnd (declLine rules)
  return (package, name, decls)

/-- A file is what is in front of its end, and then its end. -/
theorem yields_file_iff {x : File} : (file rules).Yields ctx st x st' ↔
    ∃ package name decls t st₁, (fileFront rules).Yields ctx st (package, name, decls) st₁ ∧
      Takes st₁ t st' ∧
      x = ⟨package, name, decls, st'.comments.toList, ⟨.zero, t.span.stop⟩⟩ := by
  constructor
  · intro h
    obtain ⟨package, st₁, hpackage, h⟩ := yields_bind.1 h
    obtain ⟨name, st₂, hname, h⟩ := yields_bind.1 h
    obtain ⟨_, st₃, hline, h⟩ := yields_bind.1 h
    obtain ⟨decls, st₄, hdecls, h⟩ := yields_bind.1 h
    obtain ⟨t, _, ht, h⟩ := yields_bind.1 h
    obtain ⟨state, _, hstate, h⟩ := yields_bind.1 h
    obtain ⟨rfl, rfl⟩ := yields_pure.1 h
    obtain ⟨rfl, rfl⟩ := yields_get.1 hstate
    refine ⟨package, name, decls, t, st₄, ?_, takes_of_take ht, rfl⟩
    refine yields_bind.2 ⟨package, st₁, hpackage, yields_bind.2 ⟨name, st₂, hname, ?_⟩⟩
    refine yields_bind.2 ⟨(), st₃, hline, yields_bind.2 ⟨decls, st₄, hdecls, ?_⟩⟩
    exact yields_pure.2 ⟨rfl, rfl⟩
  · rintro ⟨package, name, decls, t, st₄, h, ht, rfl⟩
    obtain ⟨package', st₁, hpackage, h⟩ := yields_bind.1 h
    obtain ⟨name', st₂, hname, h⟩ := yields_bind.1 h
    obtain ⟨_, st₃, hline, h⟩ := yields_bind.1 h
    obtain ⟨decls', st₄, hdecls, h⟩ := yields_bind.1 h
    obtain ⟨heq, rfl⟩ := yields_pure.1 h
    cases heq
    refine yields_bind.2 ⟨package, st₁, hpackage, yields_bind.2 ⟨name, st₂, hname, ?_⟩⟩
    refine yields_bind.2 ⟨(), st₃, hline, yields_bind.2 ⟨decls, st₄, hdecls, ?_⟩⟩
    refine yields_bind.2 ⟨t, st', yields_take_of_takes ht, ?_⟩
    exact yields_bind.2 ⟨st', st', yields_get.2 ⟨rfl, rfl⟩, yields_pure.2 ⟨rfl, rfl⟩⟩

/-- What is in front of the end of a file is local. -/
theorem local_fileFront (moving : rules.Moving) : (fileFront rules).Local :=
  (moves_expectKeyword .packageKw).bind fun _ => moves_expectIdent.bind fun _ =>
    local_endOfDecl.bind fun _ => (local_many local_atEnd (moves_declLine moving)).bind fun _ =>
      local_pure

end Grammar

/-- A list of tokens is parsed if the rule for files yields its file. -/
theorem parseTokens_eq_ok_iff {ts : List Token} {file : File} : parseTokens ts = .ok file ↔
    ∃ st', (Grammar.file (.level maxNesting)).Yields ⟨true⟩ ⟨ts, #[], .zero⟩ file st' := by
  rw [parseTokens]
  simp only [Parser.Yields]
  rcases ((Grammar.file (.level maxNesting)).run ⟨true⟩).run ⟨ts, #[], .zero⟩ with e | ⟨x, st⟩
  · simp
  · simp

/-- A file ends with a token, and if that is the end of the text, what is behind it makes no
difference. -/
theorem exists_end_of_file {ts : List Token} {st' : ParseState} {file : File}
    (h : (Grammar.file (.level maxNesting)).Yields ⟨true⟩ ⟨ts, #[], .zero⟩ file st') :
    ∃ front t, ts = front ++ t :: st'.tokens ∧
      (t.kind = .eof → ∀ rest, parseTokens (front ++ t :: rest) = .ok file) := by
  obtain ⟨package, name, decls, t, st₁, hparts, ht, hfile⟩ := Grammar.yields_file_iff.1 h
  obtain ⟨front, hfront, -, hagain⟩ := Grammar.local_fileFront (moving_level maxNesting) _ hparts
  refine ⟨front, t, by rw [← ht.tokens]; exact hfront.tokens, fun heof rest => ?_⟩
  have hstart : (ParseState.mk (front ++ t :: rest) #[] .zero).tokens = front ++ t :: rest := rfl
  obtain ⟨st₂, hfront₂, hrest⟩ := hfront.again hstart
  have ht₂ : Takes st₂ t ⟨rest, st₂.comments ++ t.comments, t.span.stop⟩ :=
    ⟨hrest, rfl, rfl, ht.noError⟩
  have hagree : Agree st₁.tokens st₂.tokens := by
    rw [ht.tokens, hrest]
    exact .stop (by rw [heof]; rfl)
  -- the comments are those of the tokens that are taken, which are the same
  have hcomments := (hfront₂.consumes.append ht₂.consumes).comments
  rw [← (hfront.consumes.append ht.consumes).comments] at hcomments
  rw [← hcomments] at hfile
  exact parseTokens_eq_ok_iff.2 ⟨_, Grammar.yields_file_iff.2
    ⟨package, name, decls, t, st₂, hagain hfront₂ hagree, ht₂, hfile⟩⟩

/-- The tokens that are parsed are those up to the first for the end of the text. -/
theorem exists_of_parseTokens {ts : List Token} {file : File} (h : parseTokens ts = .ok file) :
    ∃ front t rest, ts = front ++ t :: rest ∧ t.kind = .eof ∧
      (∀ u ∈ front, u.kind ≠ .eof ∧ ∀ message, u.kind ≠ .error message) ∧
      file.span = ⟨.zero, t.span.stop⟩ ∧ file.comments = (front ++ [t]).flatMap (·.comments) ∧
      ∀ rest', parseTokens (front ++ t :: rest') = .ok file := by
  obtain ⟨st', hyields⟩ := parseTokens_eq_ok_iff.1 h
  obtain ⟨p, t, rows, -, hspan, hrows, ht, heof, hcomments⟩ :=
    Grammar.reads_file (sound_level maxNesting) hyields
  obtain ⟨front, hfront, hends⟩ := hrows.passes
  have htokens : ts = front ++ t :: st'.tokens := by
    rw [← ht.tokens]
    exact hfront.tokens
  -- the rows of the file and its rules take the same tokens
  obtain ⟨front', t', htokens', hbehind⟩ := exists_end_of_file hyields
  obtain ⟨rfl, hlast⟩ := List.append_inj' (htokens.symm.trans htokens') rfl
  obtain ⟨rfl, -⟩ := List.cons.inj hlast
  refine ⟨front, t, st'.tokens, htokens, heof, fun u hu => ?_, hspan, ?_, hbehind heof⟩
  · exact ⟨hends u hu, hfront.consumes.noError u hu⟩
  · rw [hcomments, (hfront.consumes.append ht.consumes).comments]
    rfl

/-- **The comments of a file, and its end.** The tokens of a file are those up to the first for the
end of the text, and none in front of that is an error; the file ends there, has the comments of all
these tokens in order, and does not depend on what is behind. So the comments of a file that a text
spells are all comments of the text, in order, each with its place in the text. -/
theorem comments_of_file :
    (∀ ts file, parseTokens ts = .ok file → ∃ front t rest, ts = front ++ t :: rest ∧
      t.kind = .eof ∧ (∀ u ∈ front, u.kind ≠ .eof ∧ ∀ message, u.kind ≠ .error message) ∧
      file.span = ⟨.zero, t.span.stop⟩ ∧ file.comments = (front ++ [t]).flatMap (·.comments) ∧
      ∀ rest', parseTokens (front ++ t :: rest') = .ok file) ∧
    ∀ text file, parse text = .ok file →
      file.comments = (tokens text).flatMap (·.comments) ∧
      file.comments.Pairwise (·.span.stop ≤ ·.span.start) ∧
      ∀ c ∈ file.comments, (LineTable.ofString text).slice? c.span = some c.text := by
  refine ⟨fun ts file h => exists_of_parseTokens h, fun text file h => ?_⟩
  obtain ⟨rows, q, -, -, -, -, -, hspells⟩ := reads_of_parse h
  obtain ⟨front, t, rest, htokens, heof, hfront, -, hcomments, -⟩ := exists_of_parseTokens h
  refine ⟨?_, hspells.comments_ordered, hspells.comments_slice?⟩
  obtain ⟨rfl, -, -⟩ := spells_of_tokens htokens heof fun u hu => (hfront u hu).2
  rw [hcomments, htokens]

/-- A text with a comment behind its last line. -/
def notedText : String := "package p // é\n/* end */"

/-- The comments of `notedText` are in its file, the one behind its last line too, and its file does
not depend on what is behind the end. -/
theorem comments_of_notedText : ∃ file, parse notedText = .ok file ∧
    file.comments = (tokens notedText).flatMap (·.comments) ∧ file.comments.length = 2 ∧
    ∃ front t rest, tokens notedText = front ++ t :: rest ∧ t.kind = .eof ∧
      ∀ rest', parseTokens (front ++ t :: rest') = .ok file := by
  have hok : ((parse notedText).toOption.any fun file => file.comments.length == 2) := by
    decide +kernel
  cases hparse : parse notedText with
  | error e =>
    rw [hparse] at hok
    cases hok
  | ok file =>
    rw [hparse] at hok
    obtain ⟨front, t, rest, htokens, heof, -, -, -, hbehind⟩ := comments_of_file.1 _ _ hparse
    obtain ⟨hcomments, -, -⟩ := comments_of_file.2 _ _ hparse
    exact ⟨file, rfl, hcomments, beq_iff_eq.1 hok, front, t, rest, htokens, heof, hbehind⟩

end GoTrace
