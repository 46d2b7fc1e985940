import GoTrace.Proofs.Grammar.Reading

/-!
# The order of a reading

The places in a reading are those of the tokens that are read. Where these stand in order, so do the
constructs and commas of a run, and the events of a run are taken apart as the run is read.
-/

namespace GoTrace

/-! ## Words -/

/-- A token that is taken has the first word. -/
theorem Marks.words {kind : TokenKind} {place : Offset} {st st' : ParseState}
    (h : Marks kind place st st') (hkind : kind.isWritten) :
    words st.tokens = (place, kind.spelling) :: GoTrace.words st'.tokens := by
  obtain ⟨t, ht, rfl, rfl⟩ := h
  rw [ht.tokens, words_cons hkind]
  rfl

/-- A construct starts at the first word. -/
theorem Opens.words {place : Offset} {st : ParseState} (h : Opens place st) :
    ∃ text ws, words st.tokens = (place, text) :: ws := by
  obtain ⟨t, ts, hts, rfl, hkind⟩ := h
  exact ⟨_, _, by rw [hts, words_cons (TokenKind.isWritten_of_opens hkind)]; rfl⟩

/-- The words that are left are among those that were there. -/
theorem Consumes.words_suffix {st st' : ParseState} {ts : List Token} (h : Consumes st ts st') :
    words st'.tokens <:+ words st.tokens := by
  rw [h.tokens, words_append]
  exact List.suffix_append ..

/-- An implicit semicolon has no word. -/
theorem words_of_semicolon {st st' : ParseState} {t : Token} (h : Takes st t st')
    (hkind : t.kind = .semicolon true) : words st.tokens = words st'.tokens := by
  rw [h.tokens, words_cons_of_not (by rw [hkind]; rfl)]

/-- The written tokens stand in order. -/
def Ordered (ts : List Token) : Prop := (words ts).Pairwise (·.1 < ·.1)

/-- Tokens in order are so once some are taken. -/
theorem Consumes.ordered {st st' : ParseState} {ts : List Token} (h : Consumes st ts st')
    (hordered : Ordered st.tokens) : Ordered st'.tokens :=
  hordered.sublist h.words_suffix.sublist

/-! ## Places -/

/-- The commas in front of the dots are among the commas. -/
theorem mem_of_mem_commasBeforeDots {commas : List Offset} {dots? : Option Offset} {comma : Offset}
    (h : comma ∈ commasBeforeDots commas dots?) : comma ∈ commas := by
  cases dots? with
  | none => exact h
  | some dots => exact (List.takeWhile_prefix _).subset h

/-- The comma behind the dots is among the commas. -/
theorem mem_of_mem_commaBehindDots {commas : List Offset} {dots? : Option Offset} {comma : Offset}
    (h : comma ∈ commaBehindDots commas dots?) : comma ∈ commas := by
  cases dots? with
  | none => cases h
  | some dots => exact List.mem_of_getLast? (Option.mem_filter_iff.1 h).1

/-- What holds of the heads of the rows of arguments holds of those of a call. -/
theorem heads_of_args {args : List LaidArgument} {P : Offset → Prop}
    (h : ∀ row ∈ args.flatMap LaidArgument.rows, ∀ place ∈ row.heads, P place) :
    (∀ place ∈ args.map (·.layout.start), P place) ∧
      (∀ place ∈ args.filterMap (·.dots?), P place) ∧ ∀ place ∈ args.filterMap (·.comma?), P place := by
  have hrows : ∀ a ∈ args, ∀ row ∈ a.rows, ∀ place ∈ row.heads, P place := fun a ha row hrow =>
    h row (List.mem_flatMap.2 ⟨a, ha, hrow⟩)
  refine ⟨fun place hplace => ?_, fun place hplace => ?_, fun place hplace => ?_⟩
  · obtain ⟨a, ha, rfl⟩ := List.mem_map.1 hplace
    exact hrows a ha _ (.head _) _ (.head _)
  · obtain ⟨a, ha, hdots⟩ := List.mem_filterMap.1 hplace
    exact hrows a ha (.token "..." a.dots?) (by simp [LaidArgument.rows]) place
      (by simp [Row.heads, hdots])
  · obtain ⟨a, ha, hcomma⟩ := List.mem_filterMap.1 hplace
    exact hrows a ha (.token "," a.comma?) (by simp [LaidArgument.rows]) place
      (by simp [Row.heads, hcomma])

namespace ReadsRows

variable {calls stray : Bool} {rows : List Row} {p q : Point}

/-- The tokens and constructs of the rows start where tokens do. -/
theorem head_mem (h : ReadsRows calls stray rows p q) :
    ∀ row ∈ rows, ∀ place ∈ row.heads, ∃ text, (place, text) ∈ words p.state.tokens := by
  induction h with
  | done => simp
  | silent hsilent _ ih =>
    refine List.forall_mem_cons.2 ⟨?_, ih⟩
    simp [Row.heads_of_isSilent hsilent]
  | @word _ _ row rows p q st kind place text hrow h hkind _ _ _ ih =>
    rw [h.words hkind]
    refine List.forall_mem_cons.2 ⟨?_, fun row hrow place hplace => ?_⟩
    · rw [Row.heads_of_word? hrow]
      exact List.forall_mem_singleton.2 ⟨_, List.mem_cons_self⟩
    · obtain ⟨text, htext⟩ := ih row hrow place hplace
      exact ⟨text, List.mem_cons_of_mem _ htext⟩
  | @child _ _ kind span inner rows p q st hopens hinner _ _ ih =>
    refine List.forall_mem_cons.2 ⟨?_, fun row hrow place hplace => ?_⟩
    · obtain ⟨text, ws, hwords⟩ := hopens.words
      rw [hwords]
      exact List.forall_mem_singleton.2 ⟨text, List.mem_cons_self⟩
    · obtain ⟨text, htext⟩ := ih row hrow place hplace
      obtain ⟨_, htaken⟩ := hinner.consumes
      exact ⟨text, htaken.words_suffix.subset htext⟩
  | listDone _ ih => exact List.forall_mem_cons.2 ⟨by simp [Row.heads], ih⟩
  | listItem _ ih =>
    rw [List.forall_mem_cons, List.forall_mem_cons] at ih
    refine List.forall_mem_cons.2 ⟨fun place hplace => ?_, ih.2.2⟩
    rw [Row.heads, List.map_cons, List.cons_append, List.mem_cons] at hplace
    rcases hplace with rfl | hplace
    · exact ih.1 _ List.mem_cons_self
    · exact ih.2.1 place hplace
  | listComma _ ih =>
    rw [List.forall_mem_cons, List.forall_mem_cons] at ih
    refine List.forall_mem_cons.2 ⟨fun place hplace => ?_, ih.2.2⟩
    rw [Row.heads, List.mem_append, List.mem_cons] at hplace
    rcases hplace with hplace | rfl | hplace
    · exact ih.2.1 place (List.mem_append_left _ hplace)
    · exact ih.1 _ List.mem_cons_self
    · exact ih.2.1 place (List.mem_append_right _ hplace)
  | listSkip h hkind _ ih =>
    rw [words_of_semicolon h hkind]
    exact ih
  | @call _ args items commas dots? comma? rparen hasDots rows p q r st hargs _ hitems hdots _
      hcommas hcomma hclose _ ihargs ih =>
    obtain ⟨_, htaken⟩ := hargs.consumes
    obtain ⟨_, hclosed⟩ := hclose.consumes
    obtain ⟨hstarts, hdots', hcommas'⟩ := heads_of_args ihargs
    refine List.forall_mem_cons.2 ⟨fun place hplace => ?_, ?_⟩
    · rw [Row.heads, List.mem_append, hitems, List.map_map, hcommas] at hplace
      exact hplace.elim (hstarts place) fun h => hcommas' place (mem_of_mem_commasBeforeDots h)
    refine List.forall_mem_cons.2 ⟨by simp [Row.heads], List.forall_mem_cons.2 ⟨?_, ?_⟩⟩
    · intro place hplace
      rw [Row.heads, hdots, Option.mem_toList] at hplace
      exact hdots' place (List.mem_of_getLast? hplace)
    refine List.forall_mem_cons.2 ⟨by simp [Row.heads], List.forall_mem_cons.2 ⟨?_, ?_⟩⟩
    · intro place hplace
      rw [Row.heads, hcomma, Option.mem_toList] at hplace
      exact hcommas' place (mem_of_mem_commaBehindDots hplace)
    refine List.forall_mem_cons.2 ⟨?_, fun row hrow place hplace => ?_⟩
    · refine List.forall_mem_singleton.2 ⟨")", htaken.words_suffix.subset ?_⟩
      rw [hclose.words rfl]
      exact List.mem_cons_self
    · obtain ⟨text, htext⟩ := ih row hrow place hplace
      exact ⟨text, (htaken.append hclosed).words_suffix.subset htext⟩

/-- A token that some rows begin with is in front of all that the other rows stand for. -/
theorem lt_of_word {row : Row} {place place' : Offset} {text : String}
    (h : ReadsRows calls stray (row :: rows) p q) (hordered : Ordered p.state.tokens)
    (hrow : row.word? = some (place, text)) {row' : Row} (hrow' : row' ∈ rows)
    (hplace' : place' ∈ row'.heads) : place < place' := by
  cases h with
  | silent hsilent _ =>
    have hheads := Row.heads_of_isSilent hsilent
    rw [Row.heads_of_word? hrow] at hheads
    cases hheads
  | word hword hmarks hkind _ _ rest =>
    obtain ⟨rfl, rfl⟩ := Prod.mk.inj (Option.some.inj (hrow.symm.trans hword))
    obtain ⟨text', hmem⟩ := rest.head_mem row' hrow' place' hplace'
    rw [Ordered, hmarks.words hkind] at hordered
    exact List.rel_of_pairwise_cons hordered hmem
  | child _ _ _ | listDone _ | listItem _ | listComma _ | listSkip _ _ _ => cases hrow
  | call _ _ _ _ _ _ _ _ _ => cases hrow

/-! ## Runs -/

variable {items : List Layout} {separators : List Offset} {owner : NodeKind} {depth : Nat}

/-- The words behind the first of some words in order are behind it in the text. -/
private theorem le_of_mem_words {st : ParseState} (hordered : Ordered st.tokens)
    {place place' : Offset}
    {text text' : String} {ws : List (Offset × String)}
    (hwords : words st.tokens = (place, text) :: ws)
    (h : (place', text') ∈ words st.tokens) : place ≤ place' := by
  rw [Ordered, hwords] at hordered
  rw [hwords] at h
  rcases List.mem_cons.1 h with heq | h
  · rw [(Prod.mk.inj heq).1]
    exact Nat.le_refl _
  · exact Nat.le_of_lt (Offset.lt_def.1 (List.rel_of_pairwise_cons hordered h))

/-- The events of a run begin with those of a construct that is read first. -/
theorem events_listItem {item : Layout}
    (h : ReadsRows calls stray (.child (some item) :: .list items separators :: rows) p q)
    (hordered : Ordered p.state.tokens) :
    Row.allEvents owner depth (.list (item :: items) separators :: rows) =
      Row.allEvents owner depth (.child (some item) :: .list items separators :: rows) := by
  simp only [Row.allEvents, Row.events]
  rw [Layout.runEvents_item, List.append_assoc]
  intro sep hsep
  obtain ⟨text', hmem⟩ := h.head_mem (.list items separators) (by simp) sep
    (List.mem_append_right _ (List.mem_of_mem_head? hsep))
  cases h with
  | silent h => cases h
  | word hrow => cases hrow
  | child hopens _ _ =>
    obtain ⟨text, ws, hwords⟩ := hopens.words
    exact le_of_mem_words hordered hwords hmem

/-- The events of a run begin with that of a comma that is read first. -/
theorem events_listComma {separator : Offset}
    (h : ReadsRows calls stray (.token "," (some separator) :: .list items separators :: rows) p q)
    (hordered : Ordered p.state.tokens) :
    Row.allEvents owner depth (.list items (separator :: separators) :: rows) =
      Row.allEvents owner depth (.token "," (some separator) :: .list items separators :: rows) := by
  simp only [Row.allEvents, Row.events]
  rw [Layout.runEvents_comma, List.cons_append, List.singleton_append]
  intro item hitem
  exact h.lt_of_word hordered rfl List.mem_cons_self
    (List.mem_append_left _ (List.mem_map_of_mem (List.mem_of_mem_head? hitem)))

/-! ## Tokens -/

/-- The tokens of the arguments of a call are those of their rows. -/
private theorem words_args {args : List LaidArgument} {ws : List (Offset × String)}
    (h : Event.words (Row.allEvents owner depth (args.flatMap LaidArgument.rows)) ⊆ ws) :
    (∀ a ∈ args, Event.words (a.layout.events depth) ⊆ ws) ∧
      (∀ place ∈ args.filterMap (·.dots?), (place, "...") ∈ ws) ∧
      ∀ place ∈ args.filterMap (·.comma?), (place, ",") ∈ ws := by
  have hrow : ∀ a ∈ args, ∀ row ∈ a.rows, Event.words (row.events owner depth) ⊆ ws :=
    fun a ha row hrow => List.Subset.trans (Row.words_subset (List.mem_flatMap.2 ⟨a, ha, hrow⟩)) h
  refine ⟨fun a ha => hrow a ha _ (.head _), fun place hplace => ?_, fun place hplace => ?_⟩
  · obtain ⟨a, ha, hdots⟩ := List.mem_filterMap.1 hplace
    refine hrow a ha (.token "..." a.dots?) (by simp [LaidArgument.rows]) ?_
    rw [hdots]
    exact .head _
  · obtain ⟨a, ha, hcomma⟩ := List.mem_filterMap.1 hplace
    refine hrow a ha (.token "," a.comma?) (by simp [LaidArgument.rows]) ?_
    rw [hcomma]
    exact .head _

/-- The tokens of a run are among some words if those of its constructs and its commas are. -/
private theorem words_runEvents {ws : List (Offset × String)}
    (hitems : ∀ item ∈ items, Event.words (item.events depth) ⊆ ws)
    (hcommas : ∀ place ∈ separators, (place, ",") ∈ ws) :
    Event.words (Layout.runEvents owner depth items separators) ⊆ ws := by
  intro w hw
  obtain ⟨e, he, hew⟩ := List.mem_filterMap.1 hw
  rcases Layout.of_mem_runEvents he with ⟨item, hitem, he⟩ | ⟨place, hplace, rfl⟩
  · exact hitems item hitem (List.mem_filterMap.2 ⟨e, he, hew⟩)
  · rw [← Option.some.inj hew]
    exact hcommas place hplace

/-- A token that may be missing is among some words if it is when it is there. -/
private theorem words_token {text : String} {place? : Option Offset} {ws : List (Offset × String)}
    (h : ∀ place ∈ place?, (place, text) ∈ ws) :
    Event.words (Row.events owner depth (.token text place?)) ⊆ ws := by
  cases place? with
  | none => exact List.nil_subset _
  | some place => exact List.cons_subset.2 ⟨h place rfl, List.nil_subset _⟩

/-- **The tokens among the events of a reading are tokens that are read.** -/
theorem words_subset (h : ReadsRows calls stray rows p q) (hordered : Ordered p.state.tokens)
    (owner : NodeKind) (depth : Nat) :
    Event.words (Row.allEvents owner depth rows) ⊆ words p.state.tokens := by
  induction h generalizing owner depth with
  | done => exact List.nil_subset _
  | silent hsilent _ ih =>
    rw [Row.allEvents, Event.words_append, Row.words_of_isSilent hsilent]
    exact ih hordered owner depth
  | @word _ _ row rows p q st kind place text hrow h hkind htext _ _ ih =>
    obtain ⟨_, htaken⟩ := h.consumes
    rw [Row.allEvents, Event.words_append, Row.events_of_word? hrow, h.words hkind, htext]
    exact List.cons_subset_cons _ (ih (htaken.ordered hordered) owner depth)
  | @child _ _ kind span inner rows p q st hopens hinner _ ihinner ih =>
    obtain ⟨_, htaken⟩ := hinner.consumes
    rw [Row.allEvents, Event.words_append, Row.events, Layout.words_node]
    exact List.append_subset.2 ⟨ihinner hordered kind _,
      List.Subset.trans (ih (htaken.ordered hordered) owner depth) htaken.words_suffix.subset⟩
  | listDone _ ih => exact ih hordered owner depth
  | listItem rest ih =>
    rw [rest.events_listItem hordered]
    exact ih hordered owner depth
  | listComma rest ih =>
    rw [rest.events_listComma hordered]
    exact ih hordered owner depth
  | listSkip h hkind _ ih =>
    rw [words_of_semicolon h hkind]
    exact ih (h.consumes.ordered hordered) owner depth
  | @call _ args items commas dots? comma? rparen hasDots rows p q r st hargs _ hitems hdots _
      hcommas hcomma hclose _ ihargs ih =>
    obtain ⟨_, htaken⟩ := hargs.consumes
    obtain ⟨_, hclosed⟩ := hclose.consumes
    have hall := htaken.append hclosed
    obtain ⟨hargs', hdots', hcommas'⟩ := words_args (ihargs hordered owner depth)
    simp only [Row.allEvents, Event.words_append]
    refine List.append_subset.2 ⟨words_runEvents ?_ ?_, ?_⟩
    · rw [hitems]
      exact List.forall_mem_map.2 hargs'
    · rw [hcommas]
      exact fun place h => hcommas' place (mem_of_mem_commasBeforeDots h)
    simp only [Row.words_checkpoint, List.nil_append]
    refine List.append_subset.2 ⟨words_token fun place h => ?_, ?_⟩
    · rw [hdots] at h
      exact hdots' place (List.mem_of_getLast? h)
    refine List.append_subset.2 ⟨words_token fun place h => ?_, ?_⟩
    · rw [hcomma] at h
      exact hcommas' place (mem_of_mem_commaBehindDots h)
    refine List.append_subset.2 ⟨words_token fun place h => ?_, ?_⟩
    · refine htaken.words_suffix.subset ?_
      rw [hclose.words rfl, ← Option.some.inj h]
      exact List.mem_cons_self
    · exact List.Subset.trans (ih (hall.ordered hordered) owner depth) hall.words_suffix.subset

end ReadsRows

end GoTrace
