import GoTrace.Proofs.Token.Lexed

/-!
# Where block comments end

A block comment begins with a slash and a star, and a star with a slash ends it. The closing marks are
looked for behind the opening slash, so the star of the opening marks may be the star of the closing
ones: `/*/` is a whole comment. This is the only block comment of less than four bytes; any other ends
where the first star with a slash begins behind both opening marks (`blockComments_of_tokens`). Where
none begins behind the opening slash, the rest of the text is an error.

Comments and tokens are lexemes, so the argument is about `blockCommentLength?` alone, and about which
lexemes begin with the opening marks.
-/

namespace GoTrace

open String (utf8Len)

/-! ## Closing marks -/

/-- The characters `cs` are `body`, then a star with a slash, and then `tail`; it is the first star
with a slash in them. -/
structure Closes (cs body tail : List Char) : Prop where
  eq : cs = body ++ '*' :: '/' :: tail
  first : ∀ body' tail', cs = body' ++ '*' :: '/' :: tail' → body.length ≤ body'.length

/-- There is a star with a slash in the characters `cs`. -/
def Terminated (cs : List Char) : Prop :=
  ∃ body tail, cs = body ++ '*' :: '/' :: tail

/-- In front of a character that begins no closing marks, they are where they are behind it. -/
theorem Closes.cons {c : Char} {cs body tail : List Char} (h : Closes cs body tail)
    (hc : ¬(c = '*' ∧ cs.head? = some '/')) : Closes (c :: cs) (c :: body) tail := by
  refine ⟨by rw [h.eq, List.cons_append], fun body' tail' heq => ?_⟩
  cases body' with
  | nil =>
    obtain ⟨rfl, rfl⟩ := List.cons.inj heq
    exact absurd ⟨rfl, rfl⟩ hc
  | cons d body' => exact Nat.succ_le_succ (h.first body' tail' (List.cons.inj heq).2)

/-- The same without the character. -/
theorem Closes.tail {c : Char} {cs body tail : List Char} (h : Closes (c :: cs) (c :: body) tail) :
    Closes cs body tail := by
  refine ⟨(List.cons.inj h.eq).2, fun body' tail' heq => ?_⟩
  have hle := h.first (c :: body') tail' (by rw [heq, List.cons_append])
  exact Nat.le_of_succ_le_succ hle

namespace Lexeme

variable {cs : List Char} {n m : Nat} {due : Bool}

/-- A block comment is as long as its closing marks say. -/
theorem closes_of_length (h : blockCommentLength? cs n = some m) :
    ∃ body tail, Closes cs body tail ∧ m = n + body.length + 2 := by
  fun_induction blockCommentLength? cs n with
  | case1 => cases h
  | case2 c cs n hc =>
    obtain ⟨rfl, hhead⟩ := hc
    obtain ⟨tail, rfl⟩ := List.head?_eq_some_iff.1 hhead
    cases h
    exact ⟨[], tail, ⟨rfl, fun _ _ _ => Nat.zero_le _⟩, rfl⟩
  | case3 c cs n hc ih =>
    obtain ⟨body, tail, hcloses, rfl⟩ := ih h
    exact ⟨c :: body, tail, hcloses.cons hc, by rw [List.length_cons]; omega⟩

/-- Without a length there are no closing marks. -/
theorem not_closed_of_length (h : blockCommentLength? cs n = none) (body tail : List Char) :
    cs ≠ body ++ '*' :: '/' :: tail := by
  fun_induction blockCommentLength? cs n generalizing body with
  | case1 => simp
  | case2 c cs n hc => cases h
  | case3 c cs n hc ih =>
    intro heq
    cases body with
    | nil =>
      obtain ⟨rfl, rfl⟩ := List.cons.inj heq
      exact hc ⟨rfl, rfl⟩
    | cons d body => exact ih h body (List.cons.inj heq).2

/-- A block comment begins with the opening marks, and its length is that of `blockCommentLength?`. -/
theorem opening_of_ofChars (h : ofChars due cs = (comment .block, n)) :
    ∃ rest, cs = '/' :: '*' :: rest ∧ blockCommentLength? ('*' :: rest) 1 = some n := by
  rcases comment_of_ofChars h with ⟨-, hkind⟩ | ⟨rest, rfl, hblock⟩
  · cases hkind
  refine ⟨rest, rfl, ?_⟩
  rw [blockComment] at hblock
  split at hblock
  · cases hblock
  rename_i hlength
  split at hblock <;> cases hblock
  simpa [blockCommentLength?] using hlength

/-- Opening marks begin a block comment, or a newline in it is a semicolon first; without closing
marks behind the slash, they and all characters behind them are an error. -/
theorem ofChars_opening (due : Bool) (rest : List Char) :
    (∃ n, Terminated ('*' :: rest) ∧ (ofChars due ('/' :: '*' :: rest) = (comment .block, n) ∨
        ofChars due ('/' :: '*' :: rest) = (token (.semicolon true), 0))) ∨
      ¬Terminated ('*' :: rest) ∧ ofChars due ('/' :: '*' :: rest) =
        (token (.error LexError.commentNotTerminated.message), ('/' :: '*' :: rest).length) := by
  have hopen : ofChars due ('/' :: '*' :: rest) = blockComment due ('/' :: '*' :: rest) := by
    simp [ofChars]
  have hlength : blockCommentLength? ('/' :: '*' :: rest) 0 =
      blockCommentLength? ('*' :: rest) 1 := by
    simp [blockCommentLength?]
  rw [hopen, blockComment, hlength]
  cases hmarks : blockCommentLength? ('*' :: rest) 1 with
  | none =>
    refine .inr ⟨?_, rfl⟩
    rintro ⟨body, tail, heq⟩
    exact not_closed_of_length hmarks body tail heq
  | some n =>
    obtain ⟨body, tail, hcloses, -⟩ := closes_of_length hmarks
    refine .inl ⟨n, ⟨body, tail, hcloses.eq⟩, ?_⟩
    dsimp only
    split
    · exact .inr rfl
    · exact .inl rfl

end Lexeme

/-! ## Block comments of a text -/

/-- The characters `m`, in front of `rest`, are the text of a block comment: `/*/`, or opening marks,
`inner` and closing marks, where these are the first behind the opening ones. -/
def IsBlockComment (m rest : List Char) : Prop :=
  m = ['/', '*', '/'] ∨
    ∃ inner, m = '/' :: '*' :: (inner ++ ['*', '/']) ∧ inner.head? ≠ some '/' ∧
      Closes (inner ++ '*' :: '/' :: rest) inner rest

/-- Closing marks that are the first behind the slash of the opening ones end a block comment. -/
theorem Closes.isBlockComment {cs body tail : List Char} (h : Closes ('*' :: cs) body tail) :
    IsBlockComment ('/' :: (body ++ ['*', '/'])) tail := by
  cases body with
  | nil => exact .inl rfl
  | cons c inner =>
    obtain ⟨rfl, hcs⟩ : '*' = c ∧ cs = inner ++ '*' :: '/' :: tail := List.cons.inj h.eq
    refine .inr ⟨inner, rfl, fun hhead => ?_, hcs ▸ h.tail⟩
    obtain ⟨inner', rfl⟩ := List.head?_eq_some_iff.1 hhead
    -- the star of the opening marks would be that of the closing ones
    have hle := h.first [] (inner' ++ '*' :: '/' :: tail) (by rw [hcs]; rfl)
    cases hle

section

variable {text front m tail rest : List Char} {lexeme : Lexeme} {span : Span}

/-- A block comment ends at the first closing marks. -/
theorem Lexed.isBlockComment (h : Lexed text front m tail (.comment .block) span) :
    IsBlockComment m tail := by
  obtain ⟨due, n, hlexeme, hm⟩ := h.found
  obtain ⟨rest, hrest, hlength⟩ := Lexeme.opening_of_ofChars hlexeme
  obtain ⟨body, tail', hcloses, rfl⟩ := Lexeme.closes_of_length hlength
  have hsplit : m ++ tail = '/' :: (body ++ ['*', '/']) ++ tail' := by
    rw [hrest, hcloses.eq]
    simp
  rw [hsplit, List.take_left' (by simp; omega)] at hm
  obtain rfl := hm
  obtain rfl := List.append_cancel_left hsplit
  exact hcloses.isBlockComment

/-- A lexeme that begins with opening marks is a block comment, or an error that covers the rest of
the text, according to whether there are closing marks. -/
theorem Lexed.of_opening (h : Lexed text front m tail lexeme span)
    (hrest : m ++ tail = '/' :: '*' :: rest) (hm : m ≠ []) :
    Terminated ('*' :: rest) ∧ lexeme = .comment .block ∨
      ¬Terminated ('*' :: rest) ∧ lexeme = .token (.error LexError.commentNotTerminated.message) ∧
        tail = [] := by
  obtain ⟨due, n, hlexeme, htake⟩ := h.found
  rw [hrest] at hlexeme
  rcases Lexeme.ofChars_opening due rest with ⟨n', hclosed, hcomment | hsemicolon⟩ | ⟨hopen, herror⟩
  · rw [hcomment] at hlexeme
    cases hlexeme
    exact .inl ⟨hclosed, rfl⟩
  · rw [hsemicolon] at hlexeme
    cases hlexeme
    exact absurd (List.take_zero.symm.trans htake).symm hm
  · rw [herror] at hlexeme
    cases hlexeme
    rw [← hrest, List.take_length] at htake
    exact .inr ⟨hopen, rfl, List.append_right_eq_self.1 htake⟩

end

/-- Opening marks in no comment or token begin a block comment, or an error that covers the rest of
the text. -/
theorem exists_of_opening {text : String} (hsize : text.utf8ByteSize ≤ maxOffset)
    {front rest : List Char} (htext : text.toList = front ++ '/' :: '*' :: rest)
    (hout : ∀ span ∈ (tokens text).flatMap Token.spans,
      ¬(span.start.toNat < utf8Len front ∧ utf8Len front < span.stop.toNat)) :
    ∃ t ∈ tokens text,
      Terminated ('*' :: rest) ∧
        (∃ c ∈ t.comments, c.kind = .block ∧ c.span.start.toNat = utf8Len front) ∨
      ¬Terminated ('*' :: rest) ∧ t.kind = .error LexError.commentNotTerminated.message ∧
        t.span.start.toNat = utf8Len front ∧ t.span.stop.toNat = text.utf8ByteSize := by
  obtain ⟨t, ht, m, tail, lexeme, span, hlexed, hrest, hm, hwhich⟩ :=
    exists_lexed_of_outside hsize htext (by decide) hout
  refine ⟨t, ht, ?_⟩
  rcases hlexed.of_opening hrest hm with ⟨hclosed, rfl⟩ | ⟨hopen, rfl, rfl⟩
  · rcases hwhich with ⟨c, hc, hkind, hcspan⟩ | ⟨hkind, -⟩
    · exact .inl ⟨hclosed, c, hc, (Lexeme.comment.inj hkind).symm, hcspan ▸ hlexed.start_eq⟩
    · cases hkind
  · rcases hwhich with ⟨c, -, hkind, -⟩ | ⟨hkind, htspan⟩
    · cases hkind
    · refine .inr ⟨hopen, (Lexeme.token.inj hkind).symm, htspan ▸ hlexed.start_eq, ?_⟩
      rw [htspan, hlexed.stop_eq, utf8ByteSize_eq, hlexed.text_eq, List.append_nil]

/-- **Block comments end at the first closing marks behind the opening slash.** In every text, a block
comment is the slice at its span, and it is `/*/`, or ends at the first closing marks behind both
opening ones. In a text that is not too long, opening marks that lie in no comment or token begin a
block comment if there are closing marks behind the slash; otherwise they begin an error, which
covers the rest of the text. -/
theorem blockComments_of_tokens (text : String) :
    (∀ t ∈ tokens text, ∀ c ∈ t.comments, c.kind = .block →
      ∃ front rest, text.toList = front ++ c.text.toList ++ rest ∧
        c.span.start.toNat = utf8Len front ∧
        c.span.stop.toNat = utf8Len (front ++ c.text.toList) ∧
        IsBlockComment c.text.toList rest) ∧
      (text.utf8ByteSize ≤ maxOffset → ∀ front rest,
        text.toList = front ++ '/' :: '*' :: rest →
        (∀ span ∈ (tokens text).flatMap Token.spans,
          ¬(span.start.toNat < utf8Len front ∧ utf8Len front < span.stop.toNat)) →
        (Terminated ('*' :: rest) → ∃ t ∈ tokens text, ∃ c ∈ t.comments,
          c.kind = .block ∧ c.span.start.toNat = utf8Len front) ∧
        (¬Terminated ('*' :: rest) → ∃ t ∈ tokens text,
          t.kind = .error LexError.commentNotTerminated.message ∧
          t.span.start.toNat = utf8Len front ∧ t.span.stop.toNat = text.utf8ByteSize)) := by
  constructor
  · intro t ht c hc hblock
    by_cases hsize : text.utf8ByteSize ≤ maxOffset
    · obtain ⟨front, m, tail, hlexed, rfl⟩ := (isLexed_of_mem_tokens hsize t ht).comments c hc
      rw [hblock] at hlexed
      exact ⟨front, tail, hlexed.text_eq, hlexed.start_eq, hlexed.stop_eq, hlexed.isBlockComment⟩
    · rw [tokens, Lexer.ofString, if_neg hsize] at ht
      rw [Lexer.comments_of_refused t ht] at hc
      cases hc
  · intro hsize front rest htext hout
    obtain ⟨t, ht, ⟨hclosed, c, hc, hcomment⟩ | ⟨hopen, herror⟩⟩ :=
      exists_of_opening hsize htext hout
    · exact ⟨fun _ => ⟨t, ht, c, hc, hcomment⟩, fun hopen => absurd hclosed hopen⟩
    · exact ⟨fun hclosed => absurd hclosed hopen, fun _ => ⟨t, ht, herror⟩⟩

/-- A text with a block comment whose marks share their star, one with more stars, and opening marks
that are not closed. -/
def starredText : String := "/*/ /***/ /*"

/-- The opening marks at the end of `starredText` are an error, and the comments in front of it end as
they should. -/
theorem blockComments_of_starredText :
    starredText.utf8ByteSize ≤ maxOffset ∧
      (∃ t ∈ tokens starredText, t.kind = .error LexError.commentNotTerminated.message ∧
        t.span.start.toNat = 10 ∧ t.span.stop.toNat = 12) ∧
      ∃ t ∈ tokens starredText, t.comments.map (·.text) = ["/*/", "/***/"] ∧
        ∀ c ∈ t.comments, c.kind = .block → ∃ rest, IsBlockComment c.text.toList rest := by
  have hsize : starredText.utf8ByteSize ≤ maxOffset := by decide +kernel
  have hopen : ¬Terminated ['*'] := by
    rintro ⟨body, tail, heq⟩
    have hlength := congrArg List.length heq
    simp only [List.length_append, List.length_cons, List.length_nil] at hlength
    omega
  have hout : ∀ span ∈ (tokens starredText).flatMap Token.spans,
      ¬(span.start.toNat < 10 ∧ 10 < span.stop.toNat) := by decide +kernel
  obtain ⟨hcomments, hopening⟩ := blockComments_of_tokens starredText
  obtain ⟨t, ht, hkind, hstart, hstop⟩ :=
    (hopening hsize "/*/ /***/ ".toList [] (by decide +kernel) hout).2 hopen
  refine ⟨hsize, ⟨t, ht, hkind, hstart, hstop⟩, ?_⟩
  have htexts : (tokens starredText).any
      fun t => t.comments.map (·.text) == ["/*/", "/***/"] := by decide +kernel
  obtain ⟨u, hu, htext⟩ := List.any_eq_true.1 htexts
  refine ⟨u, hu, beq_iff_eq.1 htext, fun c hc hblock => ?_⟩
  obtain ⟨_, rest, -, -, -, hmarks⟩ := hcomments u hu c hc hblock
  exact ⟨rest, hmarks⟩

/-- Block comments may be shorter than opening and closing marks are together. -/
theorem not_forall_four_le_blockComment :
    ¬∀ text : String, ∀ t ∈ tokens text, ∀ c ∈ t.comments, c.kind = .block →
      4 ≤ c.text.utf8ByteSize := by
  intro h
  have hcomments : (tokens "/*/").any fun t => t.comments.any fun c =>
      c.kind == .block && c.text.utf8ByteSize == 3 := by decide +kernel
  obtain ⟨t, ht, hc⟩ := List.any_eq_true.1 hcomments
  obtain ⟨c, hc, hshort⟩ := List.any_eq_true.1 hc
  obtain ⟨hkind, hsize⟩ := Bool.and_eq_true_iff.1 hshort
  have := h "/*/" t ht c hc (beq_iff_eq.1 hkind)
  rw [beq_iff_eq.1 hsize] at this
  exact absurd this (by decide)

end GoTrace
