import GoTrace.Proofs.Grammar.Order

/-!
# Dots among the events of a reading

The events of a construct have stray dots nowhere but in calls, and a call has them in front of its
closing bracket, with at most a comma in between, wherever they stand in the text. So the order of
the events is not that of the tokens if a text has stray dots.
-/

namespace GoTrace

/-- Among the tokens, stray dots start at the place. -/
def StrayAt (all : List Token) (place : Offset) : Prop :=
  ∃ us t vs, written all = us ++ t :: vs ∧ t.span.start = place ∧ strayDots (t :: vs)

/-- Among the tokens, a closing round bracket starts at the place. -/
def ClosesAt (all : List Token) (place : Offset) : Prop :=
  ∃ t ∈ written all, t.span.start = place ∧ t.kind = .operator .rparen

/-- Behind stray dots among the words comes a closing bracket, next or second next. -/
def Closed (all : List Token) : List (Offset × String) → Prop
  | [] => True
  | word :: words =>
    (word.2 = "..." → StrayAt all word.1 → ∃ next ∈ words.take 2, ClosesAt all next.1) ∧
      Closed all words

variable {all : List Token}

/-! ## Lists of words -/

/-- Words without dots are closed. -/
theorem closed_of_ne {ws : List (Offset × String)} (h : ∀ w ∈ ws, w.2 ≠ "...") : Closed all ws := by
  induction ws with
  | nil => trivial
  | cons w ws ih =>
    rw [List.forall_mem_cons] at h
    exact ⟨fun hdots => absurd hdots h.1, ih h.2⟩

/-- Closed words follow each other. -/
theorem Closed.append {ws ws' : List (Offset × String)} (h : Closed all ws) (h' : Closed all ws') :
    Closed all (ws ++ ws') := by
  induction ws with
  | nil => exact h'
  | cons w ws ih =>
    refine ⟨fun hdots hstray => ?_, ih h.2⟩
    obtain ⟨next, hnext, hcloses⟩ := h.1 hdots hstray
    refine ⟨next, ?_, hcloses⟩
    rw [List.append_eq, List.take_append]
    exact List.mem_append_left _ hnext

/-- Closed words are closed from any place on. -/
theorem Closed.of_append {ws ws' : List (Offset × String)} (h : Closed all (ws ++ ws')) :
    Closed all ws' := by
  induction ws with
  | nil => exact h
  | cons w ws ih => exact ih h.2

/-- The words of a run are closed if those of its constructs are. -/
theorem closed_runEvents {owner : NodeKind} {depth : Nat} {items : List Layout}
    {places : List Offset} (h : ∀ item ∈ items, Closed all (Event.words (item.events depth))) :
    Closed all (Event.words (Layout.runEvents owner depth items places)) := by
  have hcommas : ∀ places, Closed all (Event.words (Event.commas owner places)) := by
    refine fun places => closed_of_ne fun w hw => ?_
    obtain ⟨e, he, hew⟩ := List.mem_filterMap.1 hw
    obtain ⟨place, -, rfl⟩ := List.mem_map.1 he
    obtain rfl := Option.some.inj hew
    exact (by decide : "," ≠ "...")
  induction items generalizing places with
  | nil => exact hcommas places
  | cons item items ih =>
    rw [List.forall_mem_cons] at h
    rw [Layout.runEvents, Event.words_append, Event.words_append]
    exact ((hcommas _).append h.1).append (ih h.2)

/-! ## Places of tokens -/

/-- Written tokens that start at the same place are the same, and so is what is behind them. -/
theorem cut_of_start_eq (hordered : Ordered all) {us us' vs vs' : List Token} {t t' : Token}
    (h : written all = us ++ t :: vs) (h' : written all = us' ++ t' :: vs')
    (hstart : t.span.start = t'.span.start) : t :: vs = t' :: vs' := by
  rw [Ordered, words, List.pairwise_map] at hordered
  -- of two tokens the first starts in front of the second
  have hlt : ∀ {us ws vs : List Token} {t t' : Token}, written all = us ++ t :: (ws ++ t' :: vs) →
      t.span.start ≠ t'.span.start := by
    intro us ws vs t t' h heq
    rw [h, List.pairwise_append, List.pairwise_cons] at hordered
    have hword : t.span.start < t'.span.start := hordered.2.1.1 t' (by simp)
    rw [heq, Offset.lt_def] at hword
    exact Nat.lt_irrefl _ hword
  rcases List.append_eq_append_iff.1 (h.symm.trans h') with ⟨e, rfl, he⟩ | ⟨e, rfl, he⟩
  · cases e with
    | nil => exact he
    | cons u e =>
      obtain ⟨rfl, rfl⟩ := List.cons.inj he
      exact absurd hstart (hlt h)
  · cases e with
    | nil => exact he.symm
    | cons u e =>
      obtain ⟨rfl, rfl⟩ := List.cons.inj he
      exact absurd hstart.symm (hlt h')

/-- Where a token starts that is no closing bracket, none closes. -/
theorem not_closesAt (hordered : Ordered all) {us vs : List Token} {t : Token}
    (h : written all = us ++ t :: vs) (hkind : t.kind ≠ .operator .rparen) :
    ¬ClosesAt all t.span.start := by
  rintro ⟨u, hu, hstart, hukind⟩
  obtain ⟨us', vs', hcut⟩ := List.append_of_mem hu
  obtain ⟨rfl, -⟩ := List.cons.inj (cut_of_start_eq hordered hcut h hstart)
  exact hkind hukind

/-- A token that is taken stands among all tokens where it starts. -/
theorem Marks.cut {kind : TokenKind} {place : Offset} {st st' : ParseState}
    (h : Marks kind place st st') (hkind : kind.isWritten) (hall : st.tokens <:+ all) :
    ∃ us t vs, written all = us ++ t :: vs ∧ t.span.start = place ∧ t.kind = kind ∧
      written st.tokens = t :: vs := by
  obtain ⟨t, ht, rfl, rfl⟩ := h
  obtain ⟨us, rfl⟩ := hall
  have hwritten : written st.tokens = t :: written st'.tokens := by
    rw [ht.tokens, written_cons hkind]
  exact ⟨written us, t, written st'.tokens, by rw [← hwritten]; exact List.filter_append .., rfl,
    rfl, hwritten⟩

/-- A token that is not stray dots where it is taken is so nowhere. -/
theorem not_strayAt_of_marks (hordered : Ordered all) {kind : TokenKind} {place : Offset}
    {st st' : ParseState} (h : Marks kind place st st') (hkind : kind.isWritten)
    (hall : st.tokens <:+ all)
    (hdots : kind = .operator .ellipsis → strayDots (written st.tokens) = false) :
    ¬StrayAt all place := by
  rintro ⟨us, t, vs, hcut, hstart, hstray⟩
  obtain ⟨us', t', vs', hcut', hstart', rfl, hwritten⟩ := h.cut hkind hall
  rw [cut_of_start_eq hordered hcut hcut' (hstart.trans hstart'.symm)] at hstray
  by_cases hellipsis : t'.kind = .operator .ellipsis
  · rw [← hwritten, hdots hellipsis] at hstray
    cases hstray
  · rcases vs' with _ | ⟨u, _ | ⟨v, vs'⟩⟩ <;> simp [strayDots, hellipsis] at hstray

/-- A closing bracket that is taken closes where it is taken. -/
theorem Marks.closesAt {place : Offset} {st st' : ParseState}
    (h : Marks (.operator .rparen) place st st') (hall : st.tokens <:+ all) :
    ClosesAt all place := by
  obtain ⟨us, t, vs, hcut, hstart, hkind, -⟩ := h.cut rfl hall
  exact ⟨t, by rw [hcut]; simp, hstart, hkind⟩

/-! ## Readings -/

/-- The tokens that are left are the last of those that were there. -/
theorem Consumes.suffix {st st' : ParseState} {ts : List Token} (h : Consumes st ts st')
    (hall : st.tokens <:+ all) : st'.tokens <:+ all := by
  rw [h.tokens] at hall
  exact (List.suffix_append ts st'.tokens).trans hall

/-- The last of some tokens in order are in order. -/
theorem Ordered.of_suffix {ts : List Token} (h : Ordered all) (hall : ts <:+ all) : Ordered ts := by
  obtain ⟨us, rfl⟩ := hall
  rw [Ordered, words_append] at h
  exact h.sublist (List.sublist_append_right _ _)

/-- The dots, the comma and the bracket behind the arguments of a call are closed. -/
private theorem closed_call (dots? comma? : Option Offset) {rparen : Offset}
    (hcloses : ClosesAt all rparen) :
    Closed all (dots?.toList.map (·, "...") ++ (comma?.toList.map (·, ",") ++ [(rparen, ")")])) := by
  have hbehind : Closed all (comma?.toList.map (·, ",") ++ [(rparen, ")")]) := by
    refine closed_of_ne (List.forall_mem_append.2 ⟨List.forall_mem_map.2 fun _ _ => ?_, ?_⟩)
    · exact (by decide : "," ≠ "...")
    · exact List.forall_mem_singleton.2 (by decide : ")" ≠ "...")
  cases dots? with
  | none => exact hbehind
  | some dots =>
    refine ⟨fun _ _ => ⟨(rparen, ")"), ?_, hcloses⟩, hbehind⟩
    cases comma? <;> simp

/-- **The events of a reading are closed**, those of each construct on its own and, unless dots may
be stray between them, those of all rows. -/
theorem ReadsRows.closed {calls stray : Bool} {rows : List Row} {p q : Point}
    (h : ReadsRows calls stray rows p q) (hordered : Ordered all) (hall : p.state.tokens <:+ all) :
    (∀ row ∈ rows, ∀ l ∈ row.parts, ∀ depth, Closed all (Event.words (l.events depth))) ∧
      (stray = false → ∀ owner depth, Closed all (Event.words (Row.allEvents owner depth rows))) := by
  induction h with
  | done => exact ⟨by simp, fun _ _ _ => trivial⟩
  | silent hsilent _ ih =>
    obtain ⟨hparts, hrows⟩ := ih hall
    refine ⟨List.forall_mem_cons.2 ⟨by simp [Row.parts_of_isSilent hsilent], hparts⟩, ?_⟩
    intro hstray owner depth
    rw [Row.allEvents, Event.words_append, Row.words_of_isSilent hsilent]
    exact hrows hstray owner depth
  | @word _ stray row rows p q st kind place text hrow h hkind htext hdots _ ih =>
    obtain ⟨_, htaken⟩ := h.consumes
    obtain ⟨hparts, hrows⟩ := ih (htaken.suffix hall)
    refine ⟨List.forall_mem_cons.2 ⟨by simp [Row.parts_of_word? hrow], hparts⟩, ?_⟩
    rintro rfl owner depth
    rw [Row.allEvents, Event.words_append, Row.events_of_word? hrow]
    refine ⟨fun _ hstrayAt => ?_, hrows rfl owner depth⟩
    exact absurd hstrayAt (not_strayAt_of_marks hordered h hkind hall fun hkind =>
      (hdots hkind).resolve_left Bool.false_ne_true)
  | child hopens hinner _ ihinner ih =>
    obtain ⟨_, htaken⟩ := hinner.consumes
    obtain ⟨hparts, hrows⟩ := ih (htaken.suffix hall)
    have hchild := (ihinner hall).2 rfl
    refine ⟨List.forall_mem_cons.2 ⟨?_, hparts⟩, ?_⟩
    · refine List.forall_mem_singleton.2 fun depth => ?_
      rw [Layout.words_node]
      exact hchild _ _
    · intro hstray owner depth
      rw [Row.allEvents, Event.words_append, Row.events, Layout.words_node]
      exact (hchild _ _).append (hrows hstray owner depth)
  | listDone _ ih =>
    obtain ⟨hparts, hrows⟩ := ih hall
    exact ⟨List.forall_mem_cons.2 ⟨by simp [Row.parts], hparts⟩, hrows⟩
  | listItem rest ih =>
    obtain ⟨hparts, hrows⟩ := ih hall
    rw [List.forall_mem_cons, List.forall_mem_cons] at hparts
    refine ⟨List.forall_mem_cons.2 ⟨List.forall_mem_cons.2 ⟨?_, hparts.2.1⟩, hparts.2.2⟩, ?_⟩
    · exact hparts.1 _ (List.mem_singleton_self _)
    · intro hstray owner depth
      rw [rest.events_listItem (hordered.of_suffix hall)]
      exact hrows hstray owner depth
  | listComma rest ih =>
    obtain ⟨hparts, hrows⟩ := ih hall
    rw [List.forall_mem_cons, List.forall_mem_cons] at hparts
    refine ⟨List.forall_mem_cons.2 ⟨hparts.2.1, hparts.2.2⟩, ?_⟩
    intro hstray owner depth
    rw [rest.events_listComma (hordered.of_suffix hall)]
    exact hrows hstray owner depth
  | listSkip h _ _ ih => exact ih (h.consumes.suffix hall)
  | @call _ args items commas dots? comma? rparen hasDots rows p q r st hargs _ hitems _ _ _ _
      hclose _ ihargs ih =>
    obtain ⟨_, htaken⟩ := hargs.consumes
    obtain ⟨_, hclosed⟩ := hclose.consumes
    have hcloses := hclose.closesAt (htaken.suffix hall)
    obtain ⟨hparts, hrows⟩ := ih ((htaken.append hclosed).suffix hall)
    have hitems' : ∀ item ∈ items, ∀ depth, Closed all (Event.words (item.events depth)) := by
      rw [hitems]
      refine List.forall_mem_map.2 fun a ha => ?_
      exact (ihargs hall).1 (.child (some a.layout)) (List.mem_flatMap.2 ⟨a, ha, .head _⟩) a.layout
        (.head _)
    refine ⟨?_, fun hstray owner depth => ?_⟩
    · simpa [Row.parts] using ⟨hitems', hparts⟩
    · have hrun : Closed all (Event.words (Row.events owner depth (.list items commas))) :=
        closed_runEvents fun item hitem => hitems' item hitem depth
      have hend := (hrun.append (closed_call dots? comma? hcloses)).append (hrows hstray owner depth)
      simpa [Row.allEvents, Row.words_checkpoint, Row.words_token] using hend

end GoTrace
