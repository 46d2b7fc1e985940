import GoTrace.Proofs.Source.Slice
import GoTrace.Token.Lexer

/-!
# What the lexer reads next

`Lexer.Scans` says what one call of the lexer does, without its recursion: whitespace and comments
are passed over, each comment is kept, and a token ends the reading. The first token to come is read
so (`Lexer.tokens_reading`), and what is proved of the lexer is proved by induction on this relation.

`Lexer.Stands` places the lexer in a text. What it reads next is a `Cut` of the text behind it, and
it goes on in the same text (`Lexer.Scans.stands`, `Lexer.exists_behind`).
-/

namespace GoTrace

open String (utf8Len)

/-- The characters up to the first that fails a test are so many off the front. -/
theorem take_length_takeWhile {p : Char → Bool} (cs : List Char) :
    cs.take (cs.takeWhile p).length = cs.takeWhile p :=
  (List.prefix_iff_eq_take.1 (List.takeWhile_prefix p)).symm

/-- The characters from the first that fails a test on are those behind so many. -/
theorem drop_length_takeWhile {p : Char → Bool} (cs : List Char) :
    cs.drop (cs.takeWhile p).length = cs.dropWhile p := by
  have h := List.take_append_drop (cs.takeWhile p).length cs
  rw [take_length_takeWhile] at h
  rw [← List.append_right_inj (cs.takeWhile p), h, List.takeWhile_append_dropWhile]

/-- The span of the characters `chars` with `start` bytes in front of them. -/
def Span.ofChars (start : Nat) (chars : List Char) : Span :=
  ⟨.ofNat start, .ofNat (start + utf8Len chars)⟩

namespace Lexer

/-- Blanks are whitespace. -/
theorem isSpace_of_isBlank {due : Bool} {c : Char} (h : isBlank due c) : Gap.isSpace c := by
  cases due <;> simp_all [isBlank, Gap.isSpace]

/-- The characters `rest` are blanks `w`, then those of a lexeme `m`, then others. -/
structure Front (due : Bool) (rest w m tail : List Char) : Prop where
  rest_eq : rest = w ++ m ++ tail
  blank : ∀ c ∈ w, isBlank due c
  first : ∀ c ∈ (m ++ tail).head?, isBlank due c = false

/-- Where the characters `rest` are left, with `offset` bytes in front of them, the token `t` is read
next, and `l` is the lexer behind it. -/
inductive Scans (due : Bool) :
    (rest : List Char) → (offset : Nat) → (t : Token) → (l : Lexer) → Prop
  /-- Blanks, and behind them a token. -/
  | token {rest w m tail : List Char} {offset n : Nat} {kind : TokenKind}
      (hfront : Front due rest w m tail)
      (hlexeme : Lexeme.ofChars due (m ++ tail) = (.token kind, n)) (hm : (m ++ tail).take n = m) :
      Scans due rest offset ⟨kind, [], .ofChars (offset + utf8Len w) m⟩
        (if kind = .eof then finished
          else reading tail (offset + utf8Len w + utf8Len m) kind.endsStatement)
  /-- Blanks, and behind them a comment; it belongs to the token that is read behind it. -/
  | comment {rest w m tail : List Char} {offset n : Nat} {kind : CommentKind} {t : Token} {l : Lexer}
      (hfront : Front due rest w m tail)
      (hlexeme : Lexeme.ofChars due (m ++ tail) = (.comment kind, n))
      (hm : (m ++ tail).take n = m)
      (next : Scans due tail (offset + utf8Len w + utf8Len m) t l) :
      Scans due rest offset
        { t with comments := ⟨kind, .ofList m, .ofChars (offset + utf8Len w) m⟩ :: t.comments } l

/-- Blanks are passed over up to a character that is none. -/
private theorem front_takeWhile (due : Bool) (rest : List Char) (n : Nat) :
    Front due rest (rest.takeWhile (isBlank due))
      ((rest.drop (rest.takeWhile (isBlank due)).length).take n)
      ((rest.drop (rest.takeWhile (isBlank due)).length).drop n) := by
  rw [drop_length_takeWhile]
  refine ⟨?_, fun c hc => List.all_eq_true.1 List.all_takeWhile c hc, fun c hc => ?_⟩
  · rw [List.append_assoc, List.take_append_drop, List.takeWhile_append_dropWhile]
  · have hnot := List.head?_dropWhile_not (isBlank due) rest
    rw [List.take_append_drop] at hc
    rw [Option.mem_def.1 hc] at hnot
    simpa using hnot

/-- **What the lexer reads next.** -/
theorem scans_readFrom (rest : List Char) (offset : Nat) (due : Bool) :
    Scans due rest offset (readFrom rest offset due).1 (readFrom rest offset due).2 := by
  have hlength : ∀ rest : List Char,
      utf8Len (rest.takeWhile (isBlank due)) = (rest.takeWhile (isBlank due)).length := fun rest =>
    utf8Len_of_isSpace fun c hc => isSpace_of_isBlank (List.all_eq_true.1 List.all_takeWhile c hc)
  fun_induction readFrom rest offset due with
  | case1 rest offset blanks cs kind n h str start stop next lexer heq comment ih =>
    rw [heq] at ih
    have hcs : cs.take n ++ cs.drop n = cs := List.take_append_drop n cs
    have hscans : Scans due rest offset _ lexer := .comment (front_takeWhile due rest n)
      (by rw [hcs]; exact h) (by rw [hcs]) (t := next) (by
        rw [hlength, ← String.utf8ByteSize_ofList]
        exact ih)
    rw [hlength, Span.ofChars, ← String.utf8ByteSize_ofList] at hscans
    exact hscans
  | case2 rest offset blanks cs kind n h start stop token =>
    have hcs : cs.take n ++ cs.drop n = cs := List.take_append_drop n cs
    have hscans : Scans due rest offset _ _ := .token (front_takeWhile due rest n)
      (by rw [hcs]; exact h) (by rw [hcs])
    rw [hlength, Span.ofChars, ← String.utf8ByteSize_ofList] at hscans
    exact hscans

variable {due : Bool} {rest w tail : List Char} {offset : Nat} {t : Token} {l : Lexer}

/-- The text in front of a token, its comments included, and the token. -/
theorem Scans.exists_cut (h : Scans due rest offset t l) :
    ∃ v m tail, rest = v ++ m ++ tail ∧ t.span = .ofChars (offset + utf8Len v) m := by
  induction h with
  | @token rest w m tail offset n kind hfront hlexeme hm => exact ⟨w, m, tail, hfront.rest_eq, rfl⟩
  | @comment rest w m tail offset n kind t l hfront hlexeme hm next ih =>
    obtain ⟨v, m', tail', htail, hspan⟩ := ih
    refine ⟨w ++ m ++ v, m', tail', ?_, ?_⟩
    · simp only [hfront.rest_eq, htail, List.append_assoc]
    · rw [hspan, String.utf8Len_append, String.utf8Len_append, ← Nat.add_assoc, ← Nat.add_assoc]

/-- Blanks in front are among those that are passed over. -/
theorem Front.skip {m : List Char} {x : List Char} (h : Front due (x ++ rest) w m tail)
    (hx : ∀ c ∈ x, isBlank due c) : ∃ w', w = x ++ w' ∧ Front due rest w' m tail := by
  have heq : x ++ rest = w ++ (m ++ tail) := by rw [← List.append_assoc]; exact h.rest_eq
  rcases List.append_eq_append_iff.1 heq with ⟨w', rfl, hrest⟩ | ⟨e, rfl, he⟩
  · refine ⟨w', rfl, ?_, fun c hc => h.blank c (List.mem_append_right _ hc), h.first⟩
    rw [hrest, List.append_assoc]
  · cases e with
    | nil => exact ⟨[], by simp, ⟨by simpa using he.symm, by simp, h.first⟩⟩
    | cons c e =>
      -- the first character behind the blanks would be one
      have hc := hx c (by simp)
      rw [h.first c (by rw [he]; rfl)] at hc
      cases hc

/-- Blanks in front may be passed over. -/
theorem Scans.skip {x : List Char} (h : Scans due (x ++ rest) offset t l)
    (hx : ∀ c ∈ x, isBlank due c) : Scans due rest (offset + utf8Len x) t l := by
  cases h with
  | token hfront hlexeme hm =>
    obtain ⟨w', rfl, hfront'⟩ := hfront.skip hx
    rw [String.utf8Len_append, ← Nat.add_assoc]
    exact .token hfront' hlexeme hm
  | comment hfront hlexeme hm next =>
    obtain ⟨w', rfl, hfront'⟩ := hfront.skip hx
    rw [String.utf8Len_append, ← Nat.add_assoc] at next ⊢
    exact .comment hfront' hlexeme hm next

/-- Behind a token the lexer goes on, unless the token is the end. -/
theorem Scans.behind (h : Scans due rest offset t l) : ∃ rest' offset',
    l = if t.kind = .eof then finished else reading rest' offset' t.kind.endsStatement := by
  induction h with
  | token _ _ _ => exact ⟨_, _, rfl⟩
  | comment _ _ _ _ ih => exact ih

/-! ## The tokens to come -/

/-- The first token to come is the one that is read next. -/
theorem tokens_reading (rest : List Char) (offset : Nat) (due : Bool) :
    ∃ t l, Scans due rest offset t l ∧ (reading rest offset due).tokens = t :: l.tokens := by
  refine ⟨_, _, scans_readFrom rest offset due, ?_⟩
  rw [tokens]
  rfl

/-- No tokens come once the end has been given out. -/
theorem tokens_finished : finished.tokens = [] := by
  rw [tokens]
  rfl

/-- A text that is too long begins with an error. -/
theorem tokens_refused (size : Nat) :
    ∃ t ts message, (refused size).tokens = t :: ts ∧ t.kind = .error message := by
  rw [tokens]
  exact ⟨_, _, _, rfl, rfl⟩

/-! ## The lexer in a text -/

/-- The characters `front` of a text are in front of the lexer, and the others behind it. -/
def Stands (text front : List Char) : Lexer → Prop
  | refused _ => False
  | reading rest offset _ => text = front ++ rest ∧ offset = utf8Len front
  | finished => text = front

variable {text front front' m : List Char} {n : Nat} {kind : TokenKind}

/-- The lexer begins in front of all characters of a text that is not too long. -/
theorem stands_ofString {text : String} (hsize : text.utf8ByteSize ≤ maxOffset) :
    Stands text.toList [] (ofString text) := by
  rw [ofString, if_pos hsize]
  exact ⟨rfl, rfl⟩

/-- A lexer stands at one place of a text only. -/
theorem Stands.unique (h : Stands text front l) (h' : Stands text front' l) : front = front' := by
  cases l with
  | refused size => exact h.elim
  | reading rest offset due => exact List.append_cancel_right (h.1.symm.trans h'.1)
  | finished => exact h.symm.trans h'

/-- The offsets of a span of characters are those of its bytes, in a text that is not too long. -/
theorem toNat_ofChars {v m tail : List Char} (htext : text = v ++ m ++ tail)
    (hsize : utf8Len text ≤ maxOffset) :
    (Span.ofChars (utf8Len v) m).start.toNat = utf8Len v ∧
      (Span.ofChars (utf8Len v) m).stop.toNat = utf8Len (v ++ m) := by
  rw [htext, String.utf8Len_append, String.utf8Len_append] at hsize
  rw [String.utf8Len_append]
  exact ⟨Nat.min_eq_left (by omega), Nat.min_eq_left (by omega)⟩

/-- Behind the characters `front` of a text there is whitespace `w` and then, at `span`, the
characters `m`. -/
structure Cut (text front w m tail : List Char) (span : Span) : Prop where
  text_eq : text = front ++ w ++ m ++ tail
  space : ∀ c ∈ w, Gap.isSpace c
  start_eq : span.start.toNat = utf8Len (front ++ w)
  stop_eq : span.stop.toNat = utf8Len (front ++ w ++ m)

private theorem Front.text_eq (hfront : Front due rest w m tail)
    (hstands : Stands text front (reading rest offset due)) :
    text = front ++ w ++ m ++ tail := by
  rw [hstands.1, hfront.rest_eq, List.append_assoc, List.append_assoc, List.append_assoc]

/-- What is read next is a cut of the text. -/
theorem Front.cut (hfront : Front due rest w m tail)
    (hstands : Stands text front (reading rest offset due)) (hsize : utf8Len text ≤ maxOffset) :
    Cut text front w m tail (.ofChars (offset + utf8Len w) m) := by
  have htext := hfront.text_eq hstands
  have hspan := toNat_ofChars htext hsize
  rw [String.utf8Len_append, ← hstands.2] at hspan
  refine ⟨htext, fun c hc => isSpace_of_isBlank (hfront.blank c hc), ?_, hspan.2⟩
  rw [String.utf8Len_append, ← hstands.2]
  exact hspan.1

/-- Behind what is read next, the lexer goes on in the same text. -/
theorem Front.stands (hfront : Front due rest w m tail)
    (hstands : Stands text front (reading rest offset due)) (due' : Bool) :
    Stands text (front ++ w ++ m) (reading tail (offset + utf8Len w + utf8Len m) due') := by
  refine ⟨hfront.text_eq hstands, ?_⟩
  rw [String.utf8Len_append, String.utf8Len_append, hstands.2]

/-- Behind a token that is read next, the lexer goes on in the same text, or the text ends. -/
theorem Front.stands_behind (hfront : Front due rest w m tail)
    (hlexeme : Lexeme.ofChars due (m ++ tail) = (.token kind, n))
    (hstands : Stands text front (reading rest offset due)) :
    Stands text (front ++ w ++ m) (if kind = .eof then finished
      else reading tail (offset + utf8Len w + utf8Len m) kind.endsStatement) := by
  split
  · rename_i heof
    have hadvances := Lexeme.ofChars_advances due (m ++ tail)
    rw [hlexeme, heof] at hadvances
    obtain ⟨-, rfl⟩ := List.append_eq_nil_iff.1 hadvances.2
    exact (hfront.text_eq hstands).trans (List.append_nil _)
  · exact hfront.stands hstands _

/-- **Behind a token the lexer goes on in the same text.** -/
theorem Scans.stands (h : Scans due rest offset t l)
    (hstands : Stands text front (reading rest offset due)) (hsize : utf8Len text ≤ maxOffset) :
    ∃ front', Stands text front' l ∧ t.span.stop.toNat = utf8Len front' := by
  induction h generalizing front with
  | token hfront hlexeme _ =>
    exact ⟨_, hfront.stands_behind hlexeme hstands, (hfront.cut hstands hsize).stop_eq⟩
  | comment hfront _ _ _ ih => exact ih (hfront.stands hstands due)

/-- If no tokens are to come, all of the text is in front. -/
theorem Stands.text_eq (hstands : Stands text front l) (htokens : l.tokens = []) :
    text = front := by
  cases l with
  | refused size => exact hstands.elim
  | finished => exact hstands
  | reading rest offset due =>
    obtain ⟨t, l', -, hfirst⟩ := tokens_reading rest offset due
    rw [hfirst] at htokens
    cases htokens

/-- The first token to come is read where the lexer stands. -/
theorem Stands.exists_scans {ts : List Token} (hstands : Stands text front l)
    (htokens : l.tokens = t :: ts) : ∃ rest offset due l',
      Stands text front (reading rest offset due) ∧ Scans due rest offset t l' ∧ ts = l'.tokens := by
  cases l with
  | refused size => exact hstands.elim
  | finished =>
    rw [tokens_finished] at htokens
    cases htokens
  | reading rest offset due =>
    obtain ⟨u, l', hscans, hfirst⟩ := tokens_reading rest offset due
    obtain ⟨rfl, rfl⟩ := List.cons.inj (hfirst.symm.trans htokens)
    exact ⟨rest, offset, due, l', hstands, hscans, rfl⟩

/-- **Behind a token, the tokens to come are those of a lexer in the same text**, and none behind the
end. -/
theorem exists_behind {before after : List Token} (hstands : Stands text front l)
    (hsize : utf8Len text ≤ maxOffset) (htokens : l.tokens = before ++ t :: after) :
    ∃ front' rest offset l', Stands text front' l' ∧ t.span.stop.toNat = utf8Len front' ∧
      after = l'.tokens ∧
      l' = if t.kind = .eof then finished else reading rest offset t.kind.endsStatement := by
  induction before generalizing front l with
  | nil =>
    obtain ⟨_, _, _, l', hreading, hscans, rfl⟩ := hstands.exists_scans htokens
    obtain ⟨front', hstands', hstop⟩ := hscans.stands hreading hsize
    obtain ⟨rest, offset, hl'⟩ := hscans.behind
    exact ⟨front', rest, offset, l', hstands', hstop, rfl, hl'⟩
  | cons u before ih =>
    obtain ⟨_, _, _, l', hreading, hscans, hafter⟩ := hstands.exists_scans htokens
    obtain ⟨front', hstands', -⟩ := hscans.stands hreading hsize
    exact ih hstands' hafter.symm

/-- The end of the text is the last token, and it stands at the end. -/
theorem last_of_eof {before after : List Token} (hstands : Stands text front l)
    (hsize : utf8Len text ≤ maxOffset) (htokens : l.tokens = before ++ t :: after)
    (heof : t.kind = .eof) : after = [] ∧ t.span.stop.toNat = utf8Len text := by
  obtain ⟨front', rest, offset, l', hstands', hstop, rfl, rfl⟩ :=
    exists_behind hstands hsize htokens
  rw [if_pos heof] at hstands' ⊢
  obtain rfl : text = front' := hstands'
  exact ⟨tokens_finished, hstop⟩

end Lexer

end GoTrace
