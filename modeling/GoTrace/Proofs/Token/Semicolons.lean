import Mathlib.Order.Bounds.Defs
import GoTrace.Proofs.Token.Coverage

/-!
# Where implicit semicolons stand

Behind a token that can end a statement, the lexer gives out an implicit semicolon if the text ends
or a newline is in front of the next token, be it between comments or inside one; it gives out none
in any other place. `semicolons_of_tokens` says so of the tokens of a text, and that the semicolon
stands at the first place that asks for it.

The argument has two halves. While a semicolon is due, no newline is passed over
(`Lexer.Scans.due_cut`), so what is in front of the semicolon has none and what is in front of
another token has none either. And what makes the lexer give out the semicolon, one of the four cases of
`Lexeme.Ends`, is a newline in front of the next token or the end of the text
(`Lexer.Scans.newline_of_ends`).
-/

namespace GoTrace

open String (utf8Len)

/-- A newline stands between two tokens of a text. -/
def NewlineBetween (text : String) (t u : Token) : Prop :=
  ∃ between, (LineTable.ofString text).slice? ⟨t.span.stop, u.span.start⟩ = some between ∧
    '\n' ∈ between.toList

/-- The places that ask for a semicolon between two tokens of a text, with `comments` between
them. -/
inductive Break (text : String) (t u : Token) (comments : List Comment) : Nat → Prop
  /-- A newline that is in no comment. -/
  | newline {a b : List Char} (htext : text.toList = a ++ '\n' :: b)
      (hstop : t.span.stop.toNat ≤ utf8Len a) (hstart : utf8Len a < u.span.start.toNat)
      (hout : ∀ c ∈ comments, ¬(c.span.start.toNat ≤ utf8Len a ∧ utf8Len a < c.span.stop.toNat)) :
      Break text t u comments (utf8Len a)
  /-- The start of a line comment. -/
  | line {c : Comment} (hc : c ∈ comments) (hkind : c.kind = .line) :
      Break text t u comments c.span.start.toNat
  /-- The start of a block comment that holds a newline. -/
  | block {c : Comment} (hc : c ∈ comments) (hkind : c.kind = .block)
      (hnewline : '\n' ∈ c.text.toList) : Break text t u comments c.span.start.toNat
  /-- The end of the text. -/
  | stop : Break text t u comments text.utf8ByteSize

/-- A character between two places of a text is among those between them. -/
theorem mem_of_cut {a b front v rest : List Char} {c : Char}
    (h : a ++ c :: b = front ++ v ++ rest) (hfront : utf8Len front ≤ utf8Len a)
    (hback : utf8Len a < utf8Len (front ++ v)) : c ∈ v := by
  rcases List.append_eq_append_iff.1 h with ⟨e, hv, hrest⟩ | ⟨e, rfl, -⟩
  · cases e with
    | nil =>
      rw [hv, List.append_nil] at hback
      omega
    | cons d e =>
      obtain ⟨rfl, -⟩ := List.cons.inj hrest
      rcases List.append_eq_append_iff.1 hv with ⟨x, rfl, rfl⟩ | ⟨x, rfl, hx⟩
      · exact List.mem_append_right _ List.mem_cons_self
      · rw [String.utf8Len_append] at hfront
        obtain rfl := String.utf8Len_eq_zero.1 (by omega : utf8Len x = 0)
        rw [List.nil_append] at hx
        exact hx ▸ List.mem_cons_self
  · rw [String.utf8Len_append (front ++ v)] at hback
    omega

/-! ## Lexemes -/

namespace Lexeme

variable {cs : List Char} {n : Nat}

/-- What the text goes on with where a semicolon that is due is given out. -/
inductive Ends : List Char → Prop
  | stop : Ends []
  | newline (cs : List Char) : Ends ('\n' :: cs)
  | line {cs : List Char}
      (h : ofChars false ('/' :: cs) = (comment .line, lineCommentLength ('/' :: cs))) :
      Ends ('/' :: cs)
  | block {cs : List Char} {n : Nat} (h : ofChars false ('/' :: cs) = (comment .block, n))
      (hnewline : '\n' ∈ ('/' :: cs).take n) : Ends ('/' :: cs)

/-- Where no semicolon is due, none is given out. -/
theorem ne_semicolon_of_not_due : ofChars false cs ≠ (token (.semicolon true), n) := by
  intro h
  have hadvances := ofChars_advances false cs
  rw [h] at hadvances
  cases hadvances

/-- Whether a semicolon is due makes no difference to what is neither a newline nor a comment. -/
private theorem ofChars_due {c : Char} (hnewline : c ≠ '\n')
    (hline : ¬(c = '/' ∧ cs.head? = some '/')) (hblock : ¬(c = '/' ∧ cs.head? = some '*')) :
    ofChars true (c :: cs) = ofChars false (c :: cs) := by
  simp only [ofChars, hnewline, hline, hblock, and_false, if_false]

/-- An implicit semicolon takes no characters, and it is given out in front of what ends a
statement. -/
theorem ends_of_ofChars (h : ofChars true cs = (token (.semicolon true), n)) : n = 0 ∧ Ends cs := by
  cases cs with
  | nil =>
    cases h
    exact ⟨rfl, .stop⟩
  | cons c cs =>
    by_cases hnewline : c = '\n'
    · subst hnewline
      rw [ofChars, if_pos ⟨rfl, rfl⟩] at h
      cases h
      exact ⟨rfl, .newline cs⟩
    by_cases hline : c = '/' ∧ cs.head? = some '/'
    · obtain ⟨rfl, hhead⟩ := hline
      rw [ofChars, if_neg (by simp), if_pos ⟨rfl, hhead⟩, if_pos rfl] at h
      cases h
      refine ⟨rfl, .line ?_⟩
      rw [ofChars, if_neg (by simp), if_pos ⟨rfl, hhead⟩, if_neg (by simp)]
    by_cases hblock : c = '/' ∧ cs.head? = some '*'
    · obtain ⟨rfl, hhead⟩ := hblock
      rw [ofChars, if_neg (by simp), if_neg hline, if_pos ⟨rfl, hhead⟩, blockComment] at h
      split at h
      · cases h
      rename_i length hlength
      split at h
      · rename_i hcontains
        cases h
        rw [Bool.true_and, List.contains_iff_mem] at hcontains
        refine ⟨rfl, .block (n := length) ?_ hcontains⟩
        rw [ofChars, if_neg (by simp), if_neg hline, if_pos ⟨rfl, hhead⟩, blockComment, hlength]
        rfl
      · cases h
    · rw [ofChars_due hnewline hline hblock] at h
      exact absurd h ne_semicolon_of_not_due

/-- A comment is a line comment, where no semicolon is due, or it begins with the opening marks of a
block comment. -/
theorem comment_of_ofChars {due : Bool} {kind : CommentKind} (h : ofChars due cs = (comment kind, n)) :
    due = false ∧ kind = .line ∨
      ∃ rest, cs = '/' :: '*' :: rest ∧ blockComment due cs = (comment kind, n) := by
  cases cs with
  | nil => cases h
  | cons c cs =>
    rw [ofChars] at h
    split at h
    · cases h
    split at h
    · split at h <;> cases h
      exact .inl ⟨Bool.eq_false_iff.2 ‹_›, rfl⟩
    split at h
    · rename_i hopen
      obtain ⟨rfl, hhead⟩ := hopen
      obtain ⟨rest, rfl⟩ := List.head?_eq_some_iff.1 hhead
      exact .inr ⟨rest, rfl, h⟩
    -- no other branch gives a comment
    split at h
    · cases h
    split at h
    · rw [quoted] at h
      split at h
      split at h <;> cases h
    split at h
    · rw [rawString] at h
      split at h <;> cases h
    split at h
    · rw [quoted] at h
      split at h
      split at h <;> cases h
    split at h
    · cases h
    split at h
    · cases h
    · rw [operator] at h
      split at h <;> cases h

/-- Where a semicolon is due, a comment is passed over only if it holds no newline. -/
theorem comment_of_due {kind : CommentKind} (h : ofChars true cs = (comment kind, n)) :
    kind = .block ∧ '\n' ∉ cs.take n := by
  rcases comment_of_ofChars h with ⟨hdue, -⟩ | ⟨rest, rfl, hblock⟩
  · cases hdue
  rw [blockComment] at hblock
  split at hblock
  · cases hblock
  split at hblock
  · cases hblock
  · rename_i hcontains
    cases hblock
    rw [Bool.true_and, List.contains_iff_mem] at hcontains
    exact ⟨rfl, hcontains⟩

/-- Behind a line comment there are carriage returns, and then a newline or the end of the text. -/
theorem drop_lineCommentLength (cs : List Char) :
    ∃ w tail, cs.drop (lineCommentLength cs) = w ++ tail ∧ (∀ c ∈ w, c = '\r') ∧
      (tail = [] ∨ ∃ cs', tail = '\n' :: cs') := by
  set front := cs.takeWhile (· != '\n') with hfront
  set returns := front.reverse.takeWhile (· == '\r') with hreturns
  set kept := front.reverse.dropWhile (· == '\r') with hkept
  have hcs : cs = kept.reverse ++ (returns.reverse ++ cs.dropWhile (· != '\n')) := by
    rw [← List.append_assoc, ← List.reverse_append, List.takeWhile_append_dropWhile,
      List.reverse_reverse, List.takeWhile_append_dropWhile]
  have hlength : lineCommentLength cs = kept.reverse.length := by
    rw [List.length_reverse]
    rfl
  refine ⟨returns.reverse, cs.dropWhile (· != '\n'), ?_, ?_, ?_⟩
  · rw [hlength]
    conv_lhs => rw [hcs]
    exact List.drop_left
  · intro c hc
    rw [List.mem_reverse] at hc
    simpa using List.all_eq_true.1 List.all_takeWhile c hc
  · have hhead := List.head?_dropWhile_not (· != '\n') cs
    cases hdrop : cs.dropWhile (· != '\n') with
    | nil => exact .inl rfl
    | cons c cs' =>
      rw [hdrop] at hhead
      exact .inr ⟨cs', by simpa using hhead⟩

end Lexeme

/-! ## One token -/

namespace Lexer

variable {due : Bool} {rest w tail : List Char} {offset : Nat} {t : Token} {l : Lexer}

/-- **While a semicolon is due, no newline is passed over**, and the end of the text is not given
out. An implicit semicolon stands in front of what ends a statement, and leaves none due. -/
theorem Scans.due_cut (h : Scans true rest offset t l) :
    ∃ v m tail, rest = v ++ m ++ tail ∧ t.span = .ofChars (offset + utf8Len v) m ∧ '\n' ∉ v ∧
      (∀ c ∈ t.comments, c.kind = .block ∧ '\n' ∉ c.text.toList) ∧ t.kind ≠ .eof ∧
      (t.kind = .semicolon true →
        m = [] ∧ l = reading tail (offset + utf8Len v) false ∧ Lexeme.Ends tail) := by
  have hblank : ∀ {w : List Char}, (∀ c ∈ w, isBlank true c) → '\n' ∉ w :=
    fun hw hmem => absurd (hw _ hmem) (by decide)
  induction h with
  | @token rest w m tail offset n kind hfront hlexeme hm =>
    refine ⟨w, m, tail, hfront.rest_eq, rfl, hblank hfront.blank, by simp, ?_, ?_⟩
    · rintro rfl
      have hadvances := Lexeme.ofChars_advances true (m ++ tail)
      rw [hlexeme] at hadvances
      cases hadvances.1
    · rintro rfl
      obtain ⟨rfl, hends⟩ := Lexeme.ends_of_ofChars hlexeme
      obtain rfl : m = [] := hm.symm
      exact ⟨rfl, rfl, hends⟩
  | @comment rest w m tail offset n kind t l hfront hlexeme hm next ih =>
    obtain ⟨rfl, hnewline⟩ := Lexeme.comment_of_due hlexeme
    rw [hm] at hnewline
    obtain ⟨v, m', tail', htail, hspan, hv, hcomments, heof, hsemicolon⟩ := ih
    have hlength : offset + utf8Len w + utf8Len m + utf8Len v = offset + utf8Len (w ++ m ++ v) := by
      rw [String.utf8Len_append, String.utf8Len_append, ← Nat.add_assoc, ← Nat.add_assoc]
    rw [hlength] at hspan hsemicolon
    refine ⟨w ++ m ++ v, m', tail', ?_, hspan, ?_, ?_, heof, hsemicolon⟩
    · simp only [hfront.rest_eq, htail, List.append_assoc]
    · simp [hblank hfront.blank, hnewline, hv]
    · refine List.forall_mem_cons.2 ⟨⟨rfl, ?_⟩, hcomments⟩
      rwa [String.toList_ofList]

/-- Where no semicolon is due, none is given out. -/
theorem Scans.ne_semicolon (h : Scans false rest offset t l) : t.kind ≠ .semicolon true := by
  induction h with
  | token _ hlexeme _ =>
    rintro rfl
    exact Lexeme.ne_semicolon_of_not_due hlexeme
  | comment _ _ _ _ ih => exact ih

/-- At the end of the text, the end is given out. -/
theorem Scans.eof_of_nil (h : Scans false [] offset t l) : t.kind = .eof := by
  cases h with
  | token hfront hlexeme _ =>
    obtain ⟨-, hm⟩ := List.append_eq_nil_iff.1 (List.append_assoc .. ▸ hfront.rest_eq.symm)
    rw [hm] at hlexeme
    cases hlexeme
    rfl
  | comment hfront hlexeme _ _ =>
    obtain ⟨-, hm⟩ := List.append_eq_nil_iff.1 (List.append_assoc .. ▸ hfront.rest_eq.symm)
    rw [hm] at hlexeme
    cases hlexeme

/-- A comment that the text begins with is the first of those in front of the token. -/
theorem Scans.comment_first {cs : List Char} {kind : CommentKind} {n : Nat}
    (h : Scans due ('/' :: cs) offset t l)
    (hlexeme : Lexeme.ofChars due ('/' :: cs) = (.comment kind, n)) :
    ∃ next, Scans due (('/' :: cs).drop n) (offset + utf8Len (('/' :: cs).take n)) next l ∧
      t = { next with comments :=
        ⟨kind, .ofList (('/' :: cs).take n), .ofChars offset (('/' :: cs).take n)⟩ ::
          next.comments } := by
  have hslash : isBlank due '/' = false := by cases due <;> decide
  have hfirst : ∀ {w m tail : List Char}, Front due ('/' :: cs) w m tail →
      w = [] ∧ m ++ tail = '/' :: cs := by
    intro w m tail hfront
    have heq := hfront.rest_eq
    rw [List.append_assoc] at heq
    cases w with
    | nil => exact ⟨rfl, heq.symm⟩
    | cons c w =>
      obtain ⟨rfl, -⟩ := List.cons.inj heq
      have := hfront.blank '/' (by simp)
      rw [hslash] at this
      cases this
  cases h with
  | token hfront hlexeme' _ =>
    rw [(hfirst hfront).2, hlexeme] at hlexeme'
    cases hlexeme'
  | comment hfront hlexeme' hm next =>
    obtain ⟨rfl, heq⟩ := hfirst hfront
    rw [heq, hlexeme] at hlexeme'
    cases hlexeme'
    rw [heq] at hm
    have htail := heq.trans (List.take_append_drop n ('/' :: cs)).symm
    rw [hm, List.append_cancel_left_eq] at htail
    rw [hm, ← htail]
    exact ⟨_, next, rfl⟩

/-- A newline in front of what is read next is in front of the token. -/
theorem Scans.newline_of_front {x : List Char} (h : Scans due rest (offset + utf8Len x) t l)
    (hx : '\n' ∈ x) : ∃ v m tail, x ++ rest = v ++ m ++ tail ∧
      t.span = .ofChars (offset + utf8Len v) m ∧ '\n' ∈ v := by
  obtain ⟨v, m, tail, rfl, hspan⟩ := h.exists_cut
  rw [Nat.add_assoc, ← String.utf8Len_append] at hspan
  exact ⟨x ++ v, m, tail, by simp only [List.append_assoc], hspan, List.mem_append_left _ hx⟩

/-- **What ends a statement is a newline in front of the next token, or the end of the text.** -/
theorem Scans.newline_of_ends (h : Scans false rest offset t l) (hends : Lexeme.Ends rest) :
    t.kind = .eof ∨ ∃ v m tail, rest = v ++ m ++ tail ∧
      t.span = .ofChars (offset + utf8Len v) m ∧ '\n' ∈ v := by
  cases hends with
  | stop => exact .inl h.eof_of_nil
  | newline cs =>
    have hskip := Scans.skip (x := ['\n']) h (List.forall_mem_singleton.2 rfl)
    exact .inr (hskip.newline_of_front List.mem_cons_self)
  | @line cs hline =>
    obtain ⟨next, hnext, rfl⟩ := h.comment_first hline
    obtain ⟨w, tail, hdrop, hreturns, htail⟩ := Lexeme.drop_lineCommentLength ('/' :: cs)
    have hblank : ∀ c ∈ w, isBlank false c := fun c hc => by rw [hreturns c hc]; rfl
    have hcs := List.take_append_drop (lineCommentLength ('/' :: cs)) ('/' :: cs)
    rw [hdrop] at hcs hnext
    have hskip := hnext.skip hblank
    rcases htail with rfl | ⟨cs', rfl⟩
    · exact .inl hskip.eof_of_nil
    · -- the comment, the returns and the newline are in front of what is read next
      have hskip' := Scans.skip (x := ['\n']) hskip (List.forall_mem_singleton.2 rfl)
      rw [Nat.add_assoc, Nat.add_assoc, ← String.utf8Len_append, ← String.utf8Len_append] at hskip'
      have hfound := hskip'.newline_of_front (by simp)
      rw [List.append_assoc, List.append_assoc, List.singleton_append, hcs] at hfound
      exact .inr hfound
  | @block cs n hblock hnewline =>
    obtain ⟨next, hnext, rfl⟩ := h.comment_first hblock
    have hfound := hnext.newline_of_front hnewline
    rw [List.take_append_drop] at hfound
    exact .inr hfound

/-- Where the text ends, only the end is to come. -/
theorem tokens_nil (offset : Nat) :
    ∃ t, (reading [] offset false).tokens = [t] ∧ t.kind = .eof := by
  obtain ⟨t, l, hscans, htokens⟩ := tokens_reading [] offset false
  have hkind := hscans.eof_of_nil
  obtain ⟨rest, offset', rfl⟩ := hscans.behind
  rw [if_pos hkind, tokens_finished] at htokens
  exact ⟨t, htokens, hkind⟩

/-! ## The tokens of a text -/

variable {text front : List Char}

/-- The comments of a token and the token stand behind what is in front of the lexer, and the
comments in front of the token. -/
theorem Scans.bounds (h : Scans due rest (utf8Len front) t l) (htext : text = front ++ rest)
    (hsize : utf8Len text ≤ maxOffset) :
    utf8Len front ≤ t.span.start.toNat ∧ ∀ c ∈ t.comments,
      utf8Len front ≤ c.span.start.toNat ∧ c.span.stop.toNat ≤ t.span.start.toNat := by
  have hreading : Stands text front (reading rest (utf8Len front) due) := ⟨htext, rfl⟩
  obtain ⟨front', hstands, -⟩ := h.stands hreading hsize
  have hpieced := h.pieced hreading hsize hstands (pieced_tokens hstands hsize)
  have hstart := hpieced.bounds.2
  have hordered := hpieced.pairwise
  rw [Token.pieces, List.append_assoc, List.pairwise_append] at hordered
  refine ⟨(hstart (t.span, t.kind.text?) (by simp [Token.pieces])).1, fun c hc => ?_⟩
  have hmem : (c.span, some c.text) ∈ t.comments.map (fun c => (c.span, some c.text)) :=
    List.mem_map_of_mem hc
  refine ⟨(hstart (c.span, some c.text) ?_).1, hordered.2.2 _ hmem (t.span, t.kind.text?) (by simp)⟩
  exact List.mem_append_left _ (List.mem_append_left _ hmem)

/-- A comment that is read next stands where the lexer does. -/
theorem Scans.exists_comment {cs : List Char} {kind : CommentKind} {n : Nat}
    (h : Scans due ('/' :: cs) (utf8Len front) t l) (htext : text = front ++ '/' :: cs)
    (hsize : utf8Len text ≤ maxOffset)
    (hlexeme : Lexeme.ofChars due ('/' :: cs) = (.comment kind, n)) :
    ∃ c ∈ t.comments, c.kind = kind ∧ c.text.toList = ('/' :: cs).take n ∧
      c.span.start.toNat = utf8Len front := by
  obtain ⟨next, -, rfl⟩ := h.comment_first hlexeme
  have hcut : text = front ++ ('/' :: cs).take n ++ ('/' :: cs).drop n := by
    rw [List.append_assoc, List.take_append_drop]
    exact htext
  exact ⟨_, List.mem_cons_self, rfl, String.toList_ofList, (toNat_ofChars hcut hsize).1⟩

/-- Behind a token that is not the end, the tokens to come are those of a lexer that goes on in the
same text. -/
theorem exists_reading (hstands : Stands text front l) (hsize : utf8Len text ≤ maxOffset)
    {before after : List Token} (htokens : l.tokens = before ++ t :: after) (hkind : t.kind ≠ .eof) :
    ∃ front' rest, text = front' ++ rest ∧ t.span.stop.toNat = utf8Len front' ∧
      after = (reading rest (utf8Len front') t.kind.endsStatement).tokens := by
  obtain ⟨front', rest, offset, l', hstands', hstop, rfl, rfl⟩ :=
    exists_behind hstands hsize htokens
  rw [if_neg hkind] at hstands' ⊢
  obtain ⟨htext, rfl⟩ := hstands'
  exact ⟨front', rest, htext, hstop, rfl⟩

end Lexer

/-! ## The rule -/

/-- What is between a token and the next one that is no implicit semicolon: an implicit semicolon if
the token can end a statement and a newline or the end of the text follows, and nothing otherwise.
The semicolon takes no bytes and stands at the first place that asks for one. -/
structure SemicolonRule (text : String) (t : Token) (between : List Token) (u : Token) : Prop where
  implicit : ∀ s ∈ between, s.kind = .semicolon true
  next : u.kind ≠ .semicolon true
  one : t.kind.endsStatement → u.kind = .eof ∨ NewlineBetween text t u → between.length = 1
  none : ¬(t.kind.endsStatement ∧ (u.kind = .eof ∨ NewlineBetween text t u)) → between = []
  place : ∀ s ∈ between, s.span.start = s.span.stop ∧
    IsLeast {place | Break text t u (between.flatMap (·.comments) ++ u.comments) place}
      s.span.start.toNat

section

variable {text : String} {front v rest : List Char} {t u : Token} {l : Lexer}

/-- A newline between two tokens is one among the characters between them. -/
theorem newlineBetween_iff (htext : text.toList = front ++ v ++ rest)
    (hstop : t.span.stop.toNat = utf8Len front) (hstart : u.span.start.toNat = utf8Len (front ++ v)) :
    NewlineBetween text t u ↔ '\n' ∈ v := by
  have hslice : (LineTable.ofString text).slice? ⟨t.span.stop, u.span.start⟩ =
      some (String.ofList v) := by
    refine LineTable.slice?_eq_some_iff.2 ⟨front, rest, ?_, hstop.symm, ?_⟩
    · rw [String.toList_ofList]
      exact htext
    · rw [String.toList_ofList, ← String.utf8Len_append]
      exact hstart.symm
  constructor
  · rintro ⟨between, hbetween, hnewline⟩
    rw [hslice] at hbetween
    cases hbetween
    rwa [String.toList_ofList] at hnewline
  · intro hnewline
    exact ⟨_, hslice, by rwa [String.toList_ofList]⟩

/-- What ends a statement is the first place that asks for a semicolon, if no newline is in front of
it. -/
theorem isLeast_break {comments : List Comment} (htext : text.toList = front ++ v ++ rest)
    (hsize : utf8Len text.toList ≤ maxOffset) (hstop : t.span.stop.toNat = utf8Len front)
    (hv : '\n' ∉ v)
    (hcomments : ∀ c ∈ comments, c.span.stop.toNat ≤ utf8Len (front ++ v) ∧ c.kind = .block ∧
      '\n' ∉ c.text.toList)
    (hscans : Lexer.Scans false rest (utf8Len (front ++ v)) u l) (hends : Lexeme.Ends rest) :
    IsLeast {place | Break text t u (comments ++ u.comments) place} (utf8Len (front ++ v)) := by
  obtain ⟨hstart, hbehind⟩ := hscans.bounds htext hsize
  constructor
  · cases hends with
    | stop =>
      rw [← List.append_nil (front ++ v), ← htext, ← utf8ByteSize_eq]
      exact .stop
    | newline cs =>
      -- behind the newline come the comments of the next token and the token
      have hskip := Lexer.Scans.skip (x := ['\n']) hscans (List.forall_mem_singleton.2 rfl)
      rw [← String.utf8Len_append] at hskip
      have htext' : text.toList = front ++ v ++ ['\n'] ++ cs := by simp [htext]
      obtain ⟨hstart', hbehind'⟩ := hskip.bounds htext' hsize
      rw [String.utf8Len_append _ ['\n']] at hstart' hbehind'
      have hone : utf8Len ['\n'] = 1 := rfl
      refine .newline htext ?_ (by omega) fun c hc => ?_
      · rw [hstop, String.utf8Len_append]
        omega
      · rcases List.mem_append.1 hc with hc | hc
        · have := (hcomments c hc).1
          omega
        · have := hbehind' c hc
          omega
    | line h =>
      obtain ⟨c, hc, hkind, -, hplace⟩ := hscans.exists_comment htext hsize h
      rw [← hplace]
      exact .line (List.mem_append_right _ hc) hkind
    | block h hnewline =>
      obtain ⟨c, hc, hkind, hchars, hplace⟩ := hscans.exists_comment htext hsize h
      rw [← hplace]
      exact .block (List.mem_append_right _ hc) hkind (by rwa [hchars])
  · rintro place (@⟨a, b, htext', hge, -, -⟩ | ⟨hc, hkind⟩ | ⟨hc, -, hnewline⟩ | _)
    · -- a newline further in front would be among the characters `v`
      by_contra hlt
      exact hv (mem_of_cut (htext'.symm.trans htext) (hstop ▸ hge) (Nat.lt_of_not_le hlt))
    · rcases List.mem_append.1 hc with hc | hc
      · rw [(hcomments _ hc).2.1] at hkind
        cases hkind
      · exact (hbehind _ hc).1
    · rcases List.mem_append.1 hc with hc | hc
      · exact absurd hnewline (hcomments _ hc).2.2
      · exact (hbehind _ hc).1
    · rw [utf8ByteSize_eq, htext, String.utf8Len_append (front ++ v)]
      omega

/-- An implicit semicolon in front of what ends a statement obeys the rule. -/
theorem semicolonRule_of_ends {s : Token} (htext : text.toList = front ++ v ++ rest)
    (hsize : utf8Len text.toList ≤ maxOffset) (hstop : t.span.stop.toNat = utf8Len front)
    (hdue : t.kind.endsStatement) (hkind : s.kind = .semicolon true)
    (hspan : s.span = .ofChars (utf8Len (front ++ v)) []) (hv : '\n' ∉ v)
    (hcomments : ∀ c ∈ s.comments, c.span.stop.toNat ≤ utf8Len (front ++ v) ∧ c.kind = .block ∧
      '\n' ∉ c.text.toList)
    (hscans : Lexer.Scans false rest (utf8Len (front ++ v)) u l) (hends : Lexeme.Ends rest) :
    SemicolonRule text t [s] u := by
  have hcut : text.toList = front ++ v ++ [] ++ rest := by rw [List.append_nil, htext]
  have hstart : s.span.start.toNat = utf8Len (front ++ v) := by
    rw [hspan]
    exact (Lexer.toNat_ofChars hcut hsize).1
  refine ⟨by simpa using hkind, hscans.ne_semicolon, fun _ _ => rfl, fun hnone => ?_, ?_⟩
  · -- what made the lexer give out the semicolon is in front of the next token
    refine absurd ⟨hdue, (hscans.newline_of_ends hends).imp_right ?_⟩ hnone
    rintro ⟨x, m, tail, rfl, hspan', hx⟩
    rw [← String.utf8Len_append, List.append_assoc front] at hspan'
    have htext' : text.toList = front ++ (v ++ x) ++ m ++ tail := by
      simp only [htext, List.append_assoc]
    have hstart' := (Lexer.toNat_ofChars htext' hsize).1
    rw [← hspan'] at hstart'
    rw [List.append_assoc] at htext'
    exact (newlineBetween_iff htext' hstop hstart').2 (List.mem_append_right v hx)
  · rw [List.forall_mem_singleton, hstart, List.flatMap_singleton, hspan]
    exact ⟨rfl, isLeast_break htext hsize hstop hv hcomments hscans hends⟩

/-- Without a semicolon the rule is obeyed behind a token that cannot end a statement. -/
theorem semicolonRule_nil (hdue : t.kind.endsStatement = false) (hkind : u.kind ≠ .semicolon true) :
    SemicolonRule text t [] u :=
  ⟨by simp, hkind, by simp [hdue], fun _ => rfl, by simp⟩

/-- **The rule behind one token**, from what is read behind it. -/
theorem semicolonRule_of_reading (htext : text.toList = front ++ rest)
    (hsize : utf8Len text.toList ≤ maxOffset) (hstop : t.span.stop.toNat = utf8Len front) :
    ∃ between u after, (Lexer.reading rest (utf8Len front) t.kind.endsStatement).tokens =
      between ++ u :: after ∧ SemicolonRule text t between u := by
  obtain ⟨s, l, hscans, htokens⟩ :=
    Lexer.tokens_reading rest (utf8Len front) t.kind.endsStatement
  cases hdue : t.kind.endsStatement with
  | false =>
    rw [hdue] at hscans htokens
    exact ⟨[], s, l.tokens, htokens, semicolonRule_nil hdue hscans.ne_semicolon⟩
  | true =>
    rw [hdue] at hscans htokens
    have hbounds := hscans.bounds htext hsize
    obtain ⟨v, m, tail, rfl, hspan, hv, hcomments, heof, hsemicolon⟩ := hscans.due_cut
    rw [← String.utf8Len_append] at hspan hsemicolon
    have htext' : text.toList = front ++ v ++ m ++ tail := by simp only [htext, List.append_assoc]
    have hstart := (Lexer.toNat_ofChars htext' hsize).1
    rw [← hspan] at hstart
    by_cases hkind : s.kind = .semicolon true
    · obtain ⟨rfl, rfl, hends⟩ := hsemicolon hkind
      obtain ⟨u, l, hnext, htail⟩ := Lexer.tokens_reading tail (utf8Len (front ++ v)) false
      refine ⟨[s], u, l.tokens, by rw [htokens, htail]; rfl, ?_⟩
      rw [List.append_nil] at htext'
      refine semicolonRule_of_ends htext' hsize hstop hdue hkind hspan hv (fun c hc => ?_) hnext hends
      exact ⟨hstart ▸ (hbounds.2 c hc).2, hcomments c hc⟩
    · refine ⟨[], s, l.tokens, htokens, by simp, hkind, fun _ hnewline => ?_, fun _ => rfl, by simp⟩
      rcases hnewline with heof' | hnewline
      · exact absurd heof' heof
      · rw [List.append_assoc] at htext'
        exact absurd ((newlineBetween_iff htext' hstop hstart).1 hnewline) hv

end

/-- In a text that is too long, the rule holds behind the error that is its only token. -/
theorem semicolonRule_refused {text : String} {size : Nat} {before after : List Token} {t : Token}
    (htokens : (Lexer.refused size).tokens = before ++ t :: after) (hkind : t.kind ≠ .eof) :
    ∃ between u rest, after = between ++ u :: rest ∧ SemicolonRule text t between u := by
  obtain ⟨u, hnil, heof⟩ := Lexer.tokens_nil size
  rw [Lexer.tokens] at htokens
  dsimp only [Lexer.next?] at htokens
  rw [hnil] at htokens
  cases before with
  | nil =>
    obtain ⟨rfl, rfl⟩ := List.cons.inj htokens
    exact ⟨[], u, [], rfl, semicolonRule_nil rfl (by rw [heof]; exact TokenKind.noConfusion)⟩
  | cons b before =>
    -- the only other token is the end
    have hmem : t ∈ [u] := by
      rw [(List.cons.inj htokens).2]
      simp
    rw [List.mem_singleton.1 hmem] at hkind
    exact absurd heof hkind

/-- **Where implicit semicolons stand.** The first token of a text is none; and behind each token
that is neither an implicit semicolon nor the end, there is one up to the next such token, or the
end, exactly if the token can end a statement and a newline is in between or the text ends; and it
stands at the first place that asks for it. -/
theorem semicolons_of_tokens (text : String) :
    (∀ t ∈ (tokens text).head?, t.kind ≠ .semicolon true) ∧
      ∀ before t after, tokens text = before ++ t :: after → t.kind.isWritten →
        ∃ between u rest, after = between ++ u :: rest ∧ SemicolonRule text t between u := by
  have hwritten : ∀ t : Token, t.kind.isWritten → t.kind ≠ .eof := by
    intro t ht heof
    rw [heof] at ht
    cases ht
  rw [tokens, Lexer.ofString]
  split
  · rename_i hsize
    have hstands : Lexer.Stands text.toList [] (.reading text.toList 0 false) := ⟨rfl, rfl⟩
    rw [utf8ByteSize_eq] at hsize
    refine ⟨fun t ht => ?_, fun before t after htokens ht => ?_⟩
    · obtain ⟨u, l, hscans, hfirst⟩ := Lexer.tokens_reading text.toList 0 false
      rw [hfirst] at ht
      cases ht
      exact hscans.ne_semicolon
    · obtain ⟨front, rest, htext, hstop, rfl⟩ :=
        Lexer.exists_reading hstands hsize htokens (hwritten t ht)
      exact semicolonRule_of_reading htext hsize hstop
  · refine ⟨fun t ht => ?_, fun before t after htokens ht => ?_⟩
    · obtain ⟨u, ts, message, hrefused, hkind⟩ := Lexer.tokens_refused text.utf8ByteSize
      rw [hrefused] at ht
      cases ht
      rw [hkind]
      exact TokenKind.noConfusion
    · exact semicolonRule_refused htokens (hwritten t ht)

/-- Comments over one line and over two, with a name in front of them and one behind. -/
def commentText : String := "a /* b */ /*\n*/ c"

/-- The semicolon behind the first name of `commentText` stands at the comment over two lines. -/
theorem semicolons_of_commentText : ∃ t s u rest, tokens commentText = t :: s :: u :: rest ∧
    t.kind = .ident "a" ∧ t.kind.isWritten ∧ u.kind = .ident "c" ∧ s.span.start.toNat = 10 ∧
    SemicolonRule commentText t [s] u := by
  have hkinds : (tokens commentText).map (fun t => (t.kind, t.span.start.toNat)) =
      [(.ident "a", 0), (.semicolon true, 10), (.ident "c", 16), (.semicolon true, 17),
        (.eof, 17)] := by decide +kernel
  obtain ⟨t, after, htokens, ht, hafter⟩ := List.map_eq_cons_iff.1 hkinds
  obtain ⟨s, after, rfl, hs, hafter⟩ := List.map_eq_cons_iff.1 hafter
  obtain ⟨u, after, rfl, hu, -⟩ := List.map_eq_cons_iff.1 hafter
  have hwritten : t.kind.isWritten := by rw [(Prod.mk.inj ht).1]; rfl
  obtain ⟨between, v, rest, heq, hrule⟩ :=
    (semicolons_of_tokens commentText).2 [] t _ htokens hwritten
  refine ⟨t, s, u, after, htokens, (Prod.mk.inj ht).1, hwritten, (Prod.mk.inj hu).1,
    (Prod.mk.inj hs).2, ?_⟩
  match between, heq with
  | [], heq =>
    cases heq
    exact absurd (Prod.mk.inj hs).1 hrule.next
  | [s'], heq =>
    cases heq
    exact hrule
  | s' :: u' :: between, heq =>
    cases heq
    have himplicit := hrule.implicit u (by simp)
    rw [(Prod.mk.inj hu).1] at himplicit
    cases himplicit

end GoTrace
