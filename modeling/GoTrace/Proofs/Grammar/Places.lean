import GoTrace.Proofs.Grammar.File
import GoTrace.Proofs.Grammar.Order
import GoTrace.Proofs.Layout.Nodes
import GoTrace.Proofs.Token.Lexed

/-!
# Where constructs stand

A construct stands where its tokens do. Tokens do not overlap, and each is as long as its spelling,
unless it is an error (`Spaced`), which is never read, or there is no error (`Apart`). So the place
of a reading is never behind the tokens that are left (`Point.Fits`). Then the parts of a construct
stand in order, without overlap, and between its ends (`InOrder`), and the construct stops with a
token or with one of its parts.

All this is said of the constructs of a tree, so every one of them has to be read for itself:
`Layout.Reads.of_mem_preorder` finds the tokens that it is read from.
-/

namespace GoTrace

/-- A number of bytes behind a place is not in front of it. -/
theorem Offset.le_advance (place : Offset) (n : Nat) : place ≤ place.advance n := by
  rw [Offset.le_def, Offset.toNat_advance]
  exact Nat.le_min.2 ⟨Nat.le_add_right _ _, place.le_max⟩

/-! ## Spans in order -/

/-- Between two places some spans stand in order: each starts at the earliest where the one in front
of it stops. -/
inductive InOrder : (start : Offset) → (spans : List Span) → (stop : Offset) → Prop
  | nil {start stop : Offset} (h : start ≤ stop) : InOrder start [] stop
  | cons {start stop : Offset} {span : Span} {spans : List Span} (hstart : start ≤ span.start)
      (hspan : span.start ≤ span.stop) (rest : InOrder span.stop spans stop) :
      InOrder start (span :: spans) stop

namespace InOrder

variable {start middle stop : Offset} {spans spans' : List Span}

theorem le (h : InOrder start spans stop) : start ≤ stop := by
  induction h with
  | nil h => exact h
  | cons hstart hspan _ ih => exact Nat.le_trans hstart (Nat.le_trans hspan ih)

/-- Spans in order are so from an earlier place on. -/
theorem earlier {start' : Offset} (h : InOrder start spans stop) (hle : start' ≤ start) :
    InOrder start' spans stop := by
  cases h with
  | nil h => exact .nil (Nat.le_trans hle h)
  | cons hstart hspan rest => exact .cons (Nat.le_trans hle hstart) hspan rest

theorem append (h : InOrder start spans middle) (h' : InOrder middle spans' stop) :
    InOrder start (spans ++ spans') stop := by
  induction h with
  | nil h => exact h'.earlier h
  | cons hstart hspan _ ih => exact .cons hstart hspan (ih h')

/-- Each of some spans in order lies between the places. -/
theorem bounds (h : InOrder start spans stop) :
    ∀ span ∈ spans, start ≤ span.start ∧ span.start ≤ span.stop ∧ span.stop ≤ stop := by
  induction h with
  | nil _ => simp
  | @cons start stop span spans hstart hspan rest ih =>
    refine List.forall_mem_cons.2 ⟨⟨hstart, hspan, rest.le⟩, fun other hother => ?_⟩
    obtain ⟨hle, hother⟩ := ih other hother
    exact ⟨Nat.le_trans hstart (Nat.le_trans hspan hle), hother⟩

/-- Spans in order do not overlap. -/
theorem pairwise (h : InOrder start spans stop) : spans.Pairwise (·.stop ≤ ·.start) := by
  induction h with
  | nil _ => exact .nil
  | cons _ _ rest ih => exact .cons (fun other hother => (rest.bounds other hother).1) ih

end InOrder

/-! ## Tokens apart -/

/-- Tokens do not overlap, and each that is written and no error takes some bytes, as many as its
spelling. -/
structure Spaced (ts : List Token) : Prop where
  pairwise : ts.Pairwise (·.span.stop ≤ ·.span.start)
  le : ∀ t ∈ ts, t.span.start ≤ t.span.stop
  written : ∀ t ∈ ts, t.kind.isWritten → (∀ message, t.kind ≠ .error message) →
    t.span.start < t.span.stop ∧
      t.span.stop.toNat = t.span.start.toNat + t.kind.spelling.utf8ByteSize

/-- Tokens do not overlap, and each that is written takes some bytes, as many as its spelling. -/
structure Apart (ts : List Token) : Prop where
  pairwise : ts.Pairwise (·.span.stop ≤ ·.span.start)
  le : ∀ t ∈ ts, t.span.start ≤ t.span.stop
  written : ∀ t ∈ ts, t.kind.isWritten → t.span.start < t.span.stop ∧
    t.span.stop.toNat = t.span.start.toNat + t.kind.spelling.utf8ByteSize

/-- A written token starts at the place. -/
def TokenStarts (ts : List Token) (place : Offset) : Prop :=
  ∃ t ∈ ts, t.kind.isWritten ∧ t.span.start = place

/-- A written token stops at the place, as many bytes behind its start as its spelling has. -/
def TokenStops (ts : List Token) (place : Offset) : Prop :=
  ∃ t ∈ ts, t.kind.isWritten ∧ t.span.start < t.span.stop ∧
    t.span.stop.toNat = t.span.start.toNat + t.kind.spelling.utf8ByteSize ∧ t.span.stop = place

/-- A word starts with its token. -/
theorem tokenStarts_of_mem_words {ts : List Token} {place : Offset} {text : String}
    (hword : (place, text) ∈ words ts) : TokenStarts ts place := by
  obtain ⟨t, ht, heq⟩ := List.mem_map.1 hword
  obtain ⟨rfl, -⟩ := Prod.mk.inj heq
  obtain ⟨ht, hwritten⟩ := List.mem_filter.1 ht
  exact ⟨t, ht, hwritten, rfl⟩

/-- A number of bytes behind its start a span stops if it is as long. -/
theorem Span.advance_start {span : Span} {n : Nat} (h : span.stop.toNat = span.start.toNat + n) :
    span.start.advance n = span.stop := by
  ext
  rw [Offset.toNat_advance, ← h]
  exact Nat.min_eq_left span.stop.le_max

namespace Apart

variable {ts : List Token}

/-- Tokens that are apart are spaced. -/
theorem spaced (h : Apart ts) : Spaced ts :=
  ⟨h.pairwise, h.le, fun t ht hwritten _ => h.written t ht hwritten⟩

/-- Behind its start the spelling of a written token reaches to where it stops. -/
theorem advance_eq {t : Token} (h : Apart ts) (ht : t ∈ ts) (hwritten : t.kind.isWritten) :
    t.span.start.advance t.kind.spelling.utf8ByteSize = t.span.stop :=
  Span.advance_start (h.written t ht hwritten).2

/-- A word stops with its token. -/
theorem tokenStops_of_mem_words {place : Offset} {text : String} (h : Apart ts)
    (hword : (place, text) ∈ words ts) : TokenStops ts (place.advance text.utf8ByteSize) := by
  obtain ⟨t, ht, heq⟩ := List.mem_map.1 hword
  obtain ⟨rfl, rfl⟩ := Prod.mk.inj heq
  obtain ⟨ht, hwritten⟩ := List.mem_filter.1 ht
  obtain ⟨hlt, hlength⟩ := h.written t ht hwritten
  exact ⟨t, ht, hwritten, hlt, hlength, (h.advance_eq ht hwritten).symm⟩

/-- Tokens that are apart stand in order. -/
theorem ordered (h : Apart ts) : Ordered ts := by
  rw [Ordered, words, List.pairwise_map]
  refine (h.pairwise.filter _).imp_of_mem fun {t u} ht _ hle => ?_
  obtain ⟨ht, hwritten⟩ := List.mem_filter.1 ht
  exact Nat.lt_of_lt_of_le (h.written t ht hwritten).1 hle

end Apart

section

variable {st st' : ParseState} {ts : List Token} {place : Offset}

/-- The tokens that are left are among those that were there. -/
theorem Consumes.sublist (h : Consumes st ts st') : st'.tokens.Sublist st.tokens := by
  rw [h.tokens]
  exact List.sublist_append_right ..

theorem Consumes.subset (h : Consumes st ts st') : st'.tokens ⊆ st.tokens := h.sublist.subset

/-- Tokens are spaced once some are taken. -/
theorem Consumes.spaced (h : Consumes st ts st') (hspaced : Spaced st.tokens) :
    Spaced st'.tokens :=
  ⟨hspaced.pairwise.sublist h.sublist, fun t ht => hspaced.le t (h.subset ht),
    fun t ht => hspaced.written t (h.subset ht)⟩

/-- Tokens are apart once some are taken. -/
theorem Consumes.apart (h : Consumes st ts st') (hapart : Apart st.tokens) : Apart st'.tokens :=
  ⟨hapart.pairwise.sublist h.sublist, fun t ht => hapart.le t (h.subset ht),
    fun t ht => hapart.written t (h.subset ht)⟩

theorem Consumes.tokenStarts (h : Consumes st ts st') (hstarts : TokenStarts st'.tokens place) :
    TokenStarts st.tokens place := by
  obtain ⟨t, ht, hstarts⟩ := hstarts
  exact ⟨t, h.subset ht, hstarts⟩

theorem Consumes.tokenStops (h : Consumes st ts st') (hstops : TokenStops st'.tokens place) :
    TokenStops st.tokens place := by
  obtain ⟨t, ht, hstops⟩ := hstops
  exact ⟨t, h.subset ht, hstops⟩

end

/-- The place of a reading is not behind the tokens that are left. -/
def Point.Fits (p : Point) : Prop := ∀ t ∈ p.state.tokens, p.place ≤ t.span.start

theorem Point.Fits.le {p : Point} {place : Offset} (h : p.Fits)
    (hstarts : TokenStarts p.state.tokens place) : p.place ≤ place := by
  obtain ⟨t, ht, -, rfl⟩ := hstarts
  exact h t ht

section

variable {kind : TokenKind} {place : Offset} {st st' : ParseState}

/-- A construct that opens at a place starts with a token. -/
theorem Opens.tokenStarts (h : Opens place st) : TokenStarts st.tokens place := by
  obtain ⟨t, ts, htokens, hstart, hkind⟩ := h
  exact ⟨t, htokens ▸ List.mem_cons_self, TokenKind.isWritten_of_opens hkind, hstart⟩

/-- A construct that opens at a place is not behind the tokens that are left. -/
theorem Opens.fits (h : Opens place st) (hspaced : Spaced st.tokens) :
    Point.Fits ⟨place, st⟩ := by
  obtain ⟨t, ts, htokens, rfl, -⟩ := h
  have hpairwise := hspaced.pairwise
  have hle := hspaced.le
  rw [htokens] at hpairwise hle
  rw [Point.Fits, htokens]
  refine List.forall_mem_cons.2 ⟨Nat.le_refl _, fun u hu => ?_⟩
  exact Nat.le_trans (hle t List.mem_cons_self) (List.rel_of_pairwise_cons hpairwise hu)

theorem Marks.tokenStarts (h : Marks kind place st st') (hkind : kind.isWritten) :
    TokenStarts st.tokens place := by
  obtain ⟨t, ht, rfl, hstart⟩ := h
  exact ⟨t, ht.tokens ▸ List.mem_cons_self, hkind, hstart⟩

/-- A token that is taken stops behind its spelling. -/
theorem Marks.tokenStops (h : Marks kind place st st') (hkind : kind.isWritten)
    (hspaced : Spaced st.tokens) :
    TokenStops st.tokens (place.advance kind.spelling.utf8ByteSize) := by
  obtain ⟨t, ht, rfl, rfl⟩ := h
  have hmem : t ∈ st.tokens := ht.tokens ▸ List.mem_cons_self
  obtain ⟨hlt, hlength⟩ := hspaced.written t hmem hkind ht.noError
  exact ⟨t, hmem, hkind, hlt, hlength, (Span.advance_start hlength).symm⟩

/-- Behind a token that is taken the others are left. -/
theorem Marks.fits (h : Marks kind place st st') (hkind : kind.isWritten)
    (hspaced : Spaced st.tokens) : Point.Fits ⟨place.advance kind.spelling.utf8ByteSize, st'⟩ := by
  obtain ⟨t, ht, rfl, rfl⟩ := h
  have hpairwise := hspaced.pairwise
  rw [Span.advance_start (hspaced.written t (ht.tokens ▸ List.mem_cons_self) hkind ht.noError).2]
  rw [ht.tokens] at hpairwise
  exact fun u hu => List.rel_of_pairwise_cons hpairwise hu

end

/-! ## Parts in order -/

/-- Arguments, with their dots and commas, have the arguments for parts. -/
theorem LaidArgument.parts_rows (args : List LaidArgument) :
    (args.flatMap LaidArgument.rows).flatMap Row.parts = args.map (·.layout) := by
  induction args with
  | nil => rfl
  | cons a args ih =>
    rw [List.flatMap_cons, List.flatMap_append, ih, List.map_cons]
    rfl

namespace ReadsRows

variable {calls stray : Bool} {rows : List Row} {p q : Point}

/-- **The constructs in some rows that are read stand in order**, between the places from and to
which the rows are read. -/
theorem inOrder (h : ReadsRows calls stray rows p q) (hspaced : Spaced p.state.tokens)
    (hfits : p.Fits) :
    InOrder p.place ((rows.flatMap Row.parts).map Layout.span) q.place ∧ q.Fits := by
  induction h with
  | done => exact ⟨.nil (Nat.le_refl _), hfits⟩
  | silent hsilent _ ih =>
    rw [List.flatMap_cons, Row.parts_of_isSilent hsilent]
    exact ih hspaced hfits
  | word hrow hmarks hkind htext _ _ ih =>
    subst htext
    obtain ⟨_, htaken⟩ := hmarks.consumes
    obtain ⟨hparts, hfits'⟩ := ih (htaken.spaced hspaced) (hmarks.fits hkind hspaced)
    rw [List.flatMap_cons, Row.parts_of_word? hrow]
    have hle := hfits.le (hmarks.tokenStarts hkind)
    exact ⟨hparts.earlier (Nat.le_trans hle (Offset.le_advance _ _)), hfits'⟩
  | child hopens hinner _ ihinner ih =>
    obtain ⟨_, htaken⟩ := hinner.consumes
    obtain ⟨hspan, hbehind⟩ := ihinner hspaced (hopens.fits hspaced)
    obtain ⟨hparts, hfits'⟩ := ih (htaken.spaced hspaced) hbehind
    exact ⟨.cons (hfits.le hopens.tokenStarts) hspan.le hparts, hfits'⟩
  | listDone _ ih | listItem _ ih | listComma _ ih => exact ih hspaced hfits
  | listSkip htakes _ _ ih =>
    exact ih (htakes.consumes.spaced hspaced) fun t ht => hfits t (htakes.consumes.subset ht)
  | @call _ args items _ _ _ _ _ rows p q r _ hargs _ hitems _ _ _ _ hclose _ ihargs ih =>
    obtain ⟨_, htaken⟩ := hargs.consumes
    obtain ⟨_, hclosed⟩ := hclose.consumes
    have hspaced' := htaken.spaced hspaced
    obtain ⟨hinner, hfits'⟩ := ihargs hspaced hfits
    obtain ⟨hparts, hfits''⟩ := ih (hclosed.spaced hspaced') (hclose.fits rfl hspaced')
    have hle := hfits'.le (hclose.tokenStarts rfl)
    rw [LaidArgument.parts_rows, ← hitems] at hinner
    have hall := hinner.append (hparts.earlier (Nat.le_trans hle (Offset.le_advance _ _)))
    rw [← List.map_append] at hall
    exact ⟨hall, hfits''⟩

/-- Where some rows stop that are read: behind a token, with one of their constructs, or where they
start if they stand for nothing. -/
theorem stop_cases (h : ReadsRows calls stray rows p q) (hspaced : Spaced p.state.tokens) :
    (q.place = p.place ∧ ∀ row ∈ rows, row.heads = []) ∨ TokenStops p.state.tokens q.place ∨
      ∃ part ∈ rows.flatMap Row.parts, part.stop = q.place := by
  induction h with
  | done => exact .inl ⟨rfl, by simp⟩
  | silent hsilent _ ih =>
    rw [List.flatMap_cons, Row.parts_of_isSilent hsilent]
    refine (ih hspaced).imp_left fun ⟨hplace, hheads⟩ => ⟨hplace, ?_⟩
    exact List.forall_mem_cons.2 ⟨Row.heads_of_isSilent hsilent, hheads⟩
  | word hrow hmarks hkind htext _ _ ih =>
    subst htext
    obtain ⟨_, htaken⟩ := hmarks.consumes
    rw [List.flatMap_cons, Row.parts_of_word? hrow]
    rcases ih (htaken.spaced hspaced) with ⟨hplace, -⟩ | hstops | hpart
    · exact .inr (.inl (hplace ▸ hmarks.tokenStops hkind hspaced))
    · exact .inr (.inl (htaken.tokenStops hstops))
    · exact .inr (.inr hpart)
  | @child _ _ kind span inner rows p q st _ hinner _ _ ih =>
    obtain ⟨_, htaken⟩ := hinner.consumes
    rcases ih (htaken.spaced hspaced) with ⟨hplace, -⟩ | hstops | ⟨part, hpart, hstop⟩
    · exact .inr (.inr ⟨_, List.mem_cons_self, hplace.symm⟩)
    · exact .inr (.inl (htaken.tokenStops hstops))
    · exact .inr (.inr ⟨part, List.mem_cons_of_mem _ hpart, hstop⟩)
  | listDone _ ih =>
    exact (ih hspaced).imp_left fun ⟨hplace, hheads⟩ =>
      ⟨hplace, List.forall_mem_cons.2 ⟨rfl, hheads⟩⟩
  | listItem _ ih | listComma _ ih =>
    -- the construct or the comma in front of the list is a head
    refine (ih hspaced).imp_left fun ⟨_, hheads⟩ => ?_
    exact absurd (List.forall_mem_cons.1 hheads).1 (List.cons_ne_nil _ _)
  | listSkip htakes _ _ ih =>
    exact (ih (htakes.consumes.spaced hspaced)).imp_right (.imp_left htakes.consumes.tokenStops)
  | @call _ args items _ _ _ _ _ rows p q r _ hargs _ _ _ _ _ _ hclose _ _ ih =>
    obtain ⟨_, htaken⟩ := hargs.consumes
    obtain ⟨_, hclosed⟩ := hclose.consumes
    have hspaced' := htaken.spaced hspaced
    rcases ih (hclosed.spaced hspaced') with ⟨hplace, -⟩ | hstops | ⟨part, hpart, hstop⟩
    · exact .inr (.inl (hplace ▸ htaken.tokenStops (hclose.tokenStops rfl hspaced')))
    · exact .inr (.inl ((htaken.append hclosed).tokenStops hstops))
    · exact .inr (.inr ⟨part, List.mem_append_right items hpart, hstop⟩)

/-- Every construct in some rows that are read is itself read. -/
theorem exists_reads (h : ReadsRows calls stray rows p q) (hcalls : calls = true) :
    ∀ part ∈ rows.flatMap Row.parts, ∃ ts st st', Consumes p.state ts st ∧ part.Reads st st' := by
  induction h with
  | done => simp
  | silent hsilent _ ih =>
    rw [List.flatMap_cons, Row.parts_of_isSilent hsilent]
    exact ih hcalls
  | word hrow hmarks _ _ _ _ ih =>
    obtain ⟨_, htaken⟩ := hmarks.consumes
    rw [List.flatMap_cons, Row.parts_of_word? hrow]
    intro part hpart
    obtain ⟨_, st, st', hfront, hreads⟩ := ih hcalls part hpart
    exact ⟨_, st, st', htaken.append hfront, hreads⟩
  | child hopens hinner _ _ ih =>
    obtain ⟨_, htaken⟩ := hinner.consumes
    subst hcalls
    refine List.forall_mem_cons.2 ⟨⟨[], _, _, .nil, .intro hopens hinner⟩, fun part hpart => ?_⟩
    obtain ⟨_, st, st', hfront, hreads⟩ := ih rfl part hpart
    exact ⟨_, st, st', htaken.append hfront, hreads⟩
  | listDone _ ih | listItem _ ih | listComma _ ih => exact ih hcalls
  | listSkip htakes _ _ ih =>
    intro part hpart
    obtain ⟨_, st, st', hfront, hreads⟩ := ih hcalls part hpart
    exact ⟨_, st, st', htakes.consumes.append hfront, hreads⟩
  | @call _ args items _ _ _ _ _ rows p q r _ hargs _ hitems _ _ _ _ hclose _ ihargs ih =>
    obtain ⟨_, htaken⟩ := hargs.consumes
    obtain ⟨_, hclosed⟩ := hclose.consumes
    rw [LaidArgument.parts_rows, ← hitems] at ihargs
    intro part hpart
    rcases List.mem_append.1 hpart with hpart | hpart
    · exact ihargs rfl part hpart
    · obtain ⟨_, st, st', hfront, hreads⟩ := ih rfl part hpart
      exact ⟨_, st, st', (htaken.append hclosed).append hfront, hreads⟩

end ReadsRows

namespace Layout.Reads

variable {l : Layout} {st st' : ParseState}

/-- **The parts of a construct that is read stand in order**, between its ends. -/
theorem inOrder (h : l.Reads st st') (hspaced : Spaced st.tokens) :
    InOrder l.start (l.parts.map Layout.span) l.stop := by
  obtain ⟨hopens, rows, heq, hrows⟩ := h
  rw [heq]
  exact (hrows.inOrder hspaced (hopens.fits hspaced)).1

/-- **A construct that is read starts with a token**, does not stop in front of its start, and stops
where a token stops or starts. -/
theorem ends (h : l.Reads st st') (hspaced : Spaced st.tokens) :
    TokenStarts st.tokens l.start ∧ l.start ≤ l.stop ∧
      (TokenStops st.tokens l.stop ∨ TokenStarts st.tokens l.stop) := by
  refine ⟨h.1.tokenStarts, (h.inOrder hspaced).le, ?_⟩
  induction l using Layout.inductionOnParts generalizing st st' with
  | _ l ih =>
  obtain ⟨hopens, rows, heq, hrows⟩ := h
  rcases hrows.stop_cases hspaced with ⟨hstop, -⟩ | hstops | ⟨part, hpart, hstop⟩
  · have hstop : l.stop = l.start := hstop
    exact .inr (hstop ▸ hopens.tokenStarts)
  · exact .inl hstops
  · have hstop : part.stop = l.stop := hstop
    obtain ⟨_, st₁, st₂, htaken, hreads⟩ := hrows.exists_reads rfl part hpart
    rw [← hstop]
    refine (ih part ?_ hreads (htaken.spaced hspaced)).imp htaken.tokenStops htaken.tokenStarts
    rw [heq]
    exact hpart

/-- Every construct in a construct that is read is itself read. -/
theorem of_mem_preorder (h : l.Reads st st') {m : Layout} (hm : m ∈ l.preorder) :
    ∃ ts st₁ st₂, Consumes st ts st₁ ∧ m.Reads st₁ st₂ := by
  induction l using Layout.inductionOnParts generalizing st st' with
  | _ l ih =>
  rw [Layout.preorder_eq, List.mem_cons, List.mem_flatMap] at hm
  rcases hm with rfl | ⟨part, hpart, hm⟩
  · exact ⟨[], st, st', .nil, h⟩
  · obtain ⟨-, rows, heq, hrows⟩ := h
    rw [heq] at hpart
    obtain ⟨_, st₁, st₂, hfront, hreads⟩ := hrows.exists_reads rfl part hpart
    obtain ⟨_, st₃, st₄, hfront', hreads'⟩ := ih part (heq ▸ hpart) hreads hm
    exact ⟨_, st₃, st₄, hfront.append hfront', hreads'⟩

end Layout.Reads

/-! ## The constructs of a file -/

/-- The ends of a token lie between characters of the text. -/
theorem isValid_of_mem_tokens {text : String} (hsize : text.utf8ByteSize ≤ maxOffset) {t : Token}
    (ht : t ∈ tokens text) : t.span.start ≤ t.span.stop ∧
      String.Pos.Raw.IsValid text ⟨t.span.start.toNat⟩ ∧
      String.Pos.Raw.IsValid text ⟨t.span.stop.toNat⟩ := by
  have hpiece : (t.span, t.kind.text?) ∈ (tokens text).flatMap Token.pieces :=
    List.mem_flatMap.2 ⟨t, ht, by simp [Token.pieces]⟩
  obtain ⟨found, hfound, -⟩ := (pieced_of_size hsize).slice? _ hpiece
  exact isValid_of_slice? hfound

/-- The tokens of a text that is not too long are spaced, errors among them. -/
theorem spaced_of_size {text : String} (hsize : text.utf8ByteSize ≤ maxOffset) :
    Spaced (tokens text) := by
  have hspan : ∀ t : Token, (t.span, t.kind.text?) ∈ t.pieces := fun t => by simp [Token.pieces]
  refine ⟨?_, fun t ht => (isValid_of_mem_tokens hsize ht).1, fun t ht hwritten herror => ?_⟩
  · refine (List.pairwise_flatMap.1 (pieced_of_size hsize).pairwise).2.imp fun hle => ?_
    exact hle _ (hspan _) _ (hspan _)
  · obtain ⟨front, m, tail, hlexed⟩ := (isLexed_of_mem_tokens hsize t ht).token
    obtain ⟨due, n, hfound, hm⟩ := hlexed.found
    have hlength : t.span.stop.toNat = t.span.start.toNat + t.kind.spelling.utf8ByteSize := by
      rw [Lexeme.spelling_of_ofChars hfound herror, hm, hlexed.start_eq, hlexed.stop_eq,
        String.utf8Len_append, utf8ByteSize_eq, String.toList_ofList]
    obtain ⟨hn, hchars⟩ := Lexeme.pos_of_isWritten hfound hwritten
    have hpos : 0 < String.utf8Len m := by
      cases m with
      | nil => exact absurd (List.take_eq_nil_iff.1 hm) (not_or_intro hn.ne' hchars)
      | cons c m =>
        rw [String.utf8Len_cons]
        exact Nat.add_pos_right _ c.utf8Size_pos
    refine ⟨?_, hlength⟩
    rw [Offset.lt_def, hlexed.start_eq, hlexed.stop_eq, String.utf8Len_append]
    exact Nat.lt_add_of_pos_right hpos

section

variable {text : String} {file : File} (h : parse text = .ok file)

include h

/-- A text that spells a file is not too long. -/
theorem size_of_parse : text.utf8ByteSize ≤ maxOffset := by
  obtain ⟨_, _, -, -, hstop, -⟩ := reads_of_parse h
  rw [← hstop]
  exact file.span.stop.le_max

/-- The tokens of a text that spells a file are apart. -/
theorem apart_of_parse : Apart (tokens text) := by
  obtain ⟨hpairwise, hle, hspaced⟩ := spaced_of_size (size_of_parse h)
  obtain ⟨_, _, -, -, -, -, -, hspells⟩ := reads_of_parse h
  refine ⟨hpairwise, hle, fun t ht hwritten => hspaced t ht hwritten fun message hkind => ?_⟩
  -- an error has no spelling, so there is none among the words
  have hpos : 0 < t.kind.spelling.utf8ByteSize :=
    hspells.nonempty t.word (List.mem_map_of_mem (List.mem_filter.2 ⟨ht, hwritten⟩))
  rw [hkind] at hpos
  cases hpos

/-- **Every construct in a file is read** from tokens of the text. -/
theorem reads_of_mem_nodes : ∀ node ∈ file.nodes, node = .file file ∨
    ∃ ts st st', Consumes ⟨tokens text, #[], .zero⟩ ts st ∧ node.layout.Reads st st' := by
  intro node hnode
  obtain ⟨rows, q, hlayout, -, -, hrows, -, -⟩ := reads_of_parse h
  rw [File.nodes, Node.preorder_eq, List.mem_cons, List.mem_flatMap] at hnode
  refine hnode.imp_right fun ⟨part, hpart, hnode⟩ => ?_
  have hparts : rows.flatMap Row.parts = (Node.file file).parts.map Node.layout :=
    Node.parts_rows hlayout
  obtain ⟨_, st₁, st₂, hfront, hreads⟩ :=
    hrows.exists_reads rfl part.layout (hparts ▸ List.mem_map_of_mem hpart)
  have hmem : node.layout ∈ part.layout.preorder := by
    rw [Node.preorder_layout]
    exact List.mem_map_of_mem hnode
  obtain ⟨_, st, st', hfront', hreads'⟩ := hreads.of_mem_preorder hmem
  exact ⟨_, st, st', hfront.append hfront', hreads'⟩

end

end GoTrace
