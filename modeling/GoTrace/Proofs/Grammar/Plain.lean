import GoTrace.Proofs.Grammar.Order

/-!
# Readings without calls

Where dots stand behind last arguments only, the rows of a call are the tokens in order, and the
call is read like any other construct. So a text without stray dots has a reading without the rule
for calls (`ReadsRows.plain`).
-/

namespace GoTrace

namespace ReadsRows

variable {calls stray : Bool} {rows : List Row} {p q r : Point}

/-- A row is read from one point to another, whatever is read behind it. -/
private def Leads (row : Row) (p m : Point) : Prop :=
  ∀ {rows q}, ReadsRows false false rows m q → ReadsRows false false (row :: rows) p q

/-- A construct is read, and then the rest. -/
private theorem of_child {l : Layout} (h : ReadsRows false false (.child (some l) :: rows) p q) :
    ∃ m, Leads (.child (some l)) p m ∧ ReadsRows false false rows m q ∧
      ∃ ts, Consumes p.state ts m.state := by
  cases h with
  | silent h => cases h
  | word hrow => cases hrow
  | child hopens hinner rest => exact ⟨_, .child hopens hinner, rest, hinner.consumes⟩

/-- A token is read if it is there, and then the rest. -/
private theorem of_token {text : String} {place? : Option Offset}
    (h : ReadsRows false false (.token text place? :: rows) p q) :
    ∃ m, Leads (.token text place?) p m ∧ ReadsRows false false rows m q ∧
      (∃ ts, Consumes p.state ts m.state) ∧ (place? = none → m = p) ∧
      ∀ place ∈ place?, words p.state.tokens = (place, text) :: words m.state.tokens := by
  cases h with
  | silent h rest =>
    cases place? with
    | none => exact ⟨p, .silent rfl, rest, ⟨[], .nil⟩, fun _ => rfl, by simp⟩
    | some place => cases h
  | @word _ _ _ _ _ _ st kind place _ hrow h hkind htext hdots rest =>
    cases place? with
    | none => cases hrow
    | some place =>
      obtain ⟨rfl, rfl⟩ := Prod.mk.inj (Option.some.inj hrow)
      refine ⟨_, .word rfl h hkind htext hdots, rest, h.consumes, nofun, ?_⟩
      intro _ hmem
      cases hmem
      rw [h.words hkind, htext]

/-- A comma in front of the dots stays in front of the others. -/
private theorem commas_cons {comma : Offset} (commas : List Offset) {dots? : Option Offset}
    (h : ∀ dots ∈ dots?, comma < dots) :
    commasBeforeDots (comma :: commas) dots? = comma :: commasBeforeDots commas dots? ∧
      commaBehindDots (comma :: commas) dots? = commaBehindDots commas dots? := by
  cases dots? with
  | none => exact ⟨rfl, rfl⟩
  | some dots =>
    have hlt := h dots rfl
    rw [commasBeforeDots, commasBeforeDots, commaBehindDots, commaBehindDots]
    refine ⟨List.takeWhile_cons_of_pos (by simpa using hlt), ?_⟩
    cases commas with
    | nil =>
      have hnot : ¬dots < comma := Nat.not_lt.2 (Nat.le_of_lt (Offset.lt_def.1 hlt))
      simp [Option.filter, hnot]
    | cons other commas => rw [List.getLast?_cons_cons]

/-- A single comma behind the dots stands behind them, and none in front. -/
private theorem comma_behind {dots comma : Offset} (h : dots < comma) :
    commasBeforeDots [comma] (some dots) = [] ∧
      commaBehindDots [comma] (some dots) = some comma := by
  have hnot : ¬comma < dots := Nat.not_lt.2 (Nat.le_of_lt (Offset.lt_def.1 h))
  refine ⟨?_, by simp [commaBehindDots, h]⟩
  rw [commasBeforeDots, List.takeWhile_cons_of_neg (by simpa using hnot)]

/-- Arguments of which only the last has dots are read as the rows of a call. -/
private theorem plain_args {args : List LaidArgument} {label label' : String} {present : Bool}
    (h : ReadsRows false false (args.flatMap LaidArgument.rows) p q)
    (hordered : Ordered p.state.tokens)
    (hlast : ∀ a ∈ args.dropLast, a.dots? = none) (rest : ReadsRows false false rows q r) :
    ReadsRows false false
      (.list (args.map (·.layout))
          (commasBeforeDots (args.filterMap (·.comma?)) (args.filterMap (·.dots?)).getLast?) ::
        .checkpoint label present :: .token "..." (args.filterMap (·.dots?)).getLast? ::
        .checkpoint label' present ::
        .token "," (commaBehindDots (args.filterMap (·.comma?))
          (args.filterMap (·.dots?)).getLast?) :: rows) p r := by
  induction args generalizing p with
  | nil =>
    cases h
    exact .listDone (.check (.silent rfl (.check (.silent rfl rest))))
  | cons a args ih =>
    obtain ⟨m₁, hchild, h₁, _, htaken₁⟩ := of_child h
    obtain ⟨m₂, hdots, h₂, ⟨_, htaken₂⟩, hnodots, hdotswords⟩ := of_token h₁
    obtain ⟨m₃, hcomma, h₃, ⟨_, htaken₃⟩, hnocomma, hcommawords⟩ := of_token h₂
    have hordered₁ := htaken₁.ordered hordered
    have hordered₂ := htaken₂.ordered hordered₁
    cases hdots? : a.dots? with
    | some dots =>
      obtain rfl : args = [] := by
        cases args with
        | nil => rfl
        | cons b args =>
          have hnone := hlast a (by rw [List.dropLast_cons_cons]; exact List.mem_cons_self)
          rw [hdots?] at hnone
          cases hnone
      cases h₃
      rw [hdots?] at hdots
      cases hcomma? : a.comma? with
      | none =>
        rw [hcomma?] at hcomma
        rw [List.filterMap_cons_some hdots?, List.filterMap_cons_none hcomma?]
        exact .listItem (hchild (.listDone (.check (hdots (.check (hcomma rest))))))
      | some comma =>
        rw [hcomma?] at hcomma
        have hlt : dots < comma := by
          rw [Ordered, hdotswords dots hdots?, hcommawords comma hcomma?] at hordered₁
          exact List.rel_of_pairwise_cons hordered₁ List.mem_cons_self
        obtain ⟨hbefore, hbehind⟩ := comma_behind hlt
        rw [List.filterMap_cons_some hdots?, List.filterMap_cons_some hcomma?]
        rw [List.filterMap_nil, List.filterMap_nil, List.getLast?_singleton, hbefore, hbehind]
        exact .listItem (hchild (.listDone (.check (hdots (.check (hcomma rest))))))
    | none =>
      rw [List.filterMap_cons_none hdots?]
      obtain rfl := hnodots hdots?
      have hlast' : ∀ b ∈ args.dropLast, b.dots? = none := fun b hb => hlast b (by
        cases args with
        | nil => cases hb
        | cons c args =>
          rw [List.dropLast_cons_cons]
          exact List.mem_cons_of_mem a hb)
      have hrest := ih h₃ (htaken₃.ordered hordered₂) hlast'
      cases hcomma? : a.comma? with
      | none =>
        rw [List.filterMap_cons_none hcomma?]
        obtain rfl := hnocomma hcomma?
        exact .listItem (hchild hrest)
      | some comma =>
        have hlt : ∀ dots ∈ (args.filterMap (·.dots?)).getLast?, comma < dots := fun dots hdots' => by
          obtain ⟨-, hheads, -⟩ := heads_of_args h₃.head_mem
          obtain ⟨text, hmem⟩ := hheads dots (List.mem_of_getLast? hdots')
          rw [Ordered, hcommawords comma hcomma?] at hordered₂
          exact List.rel_of_pairwise_cons hordered₂ hmem
        obtain ⟨hbefore, hbehind⟩ := commas_cons (args.filterMap (·.comma?)) hlt
        rw [hcomma?] at hcomma
        rw [List.filterMap_cons_some hcomma?, hbefore, hbehind]
        exact .listItem (hchild (.listComma (hcomma hrest)))

/-- **Where no dots are stray, a reading needs no rule for calls.** -/
theorem plain (h : ReadsRows calls stray rows p q) (hordered : Ordered p.state.tokens)
    (hlast : dotsLast (written p.state.tokens)) : ReadsRows false false rows p q := by
  induction h with
  | done => exact .done
  | silent hsilent _ ih => exact .silent hsilent (ih hordered hlast)
  | word hrow h hkind htext _ _ ih =>
    obtain ⟨_, htaken⟩ := h.consumes
    exact .word hrow h hkind htext (fun _ => .inr (strayDots_of_dotsLast hlast))
      (ih (htaken.ordered hordered) (htaken.dotsLast hlast))
  | child hopens hinner _ ihinner ih =>
    obtain ⟨_, htaken⟩ := hinner.consumes
    exact .child hopens (ihinner hordered hlast)
      (ih (htaken.ordered hordered) (htaken.dotsLast hlast))
  | listDone _ ih => exact .listDone (ih hordered hlast)
  | listItem _ ih => exact .listItem (ih hordered hlast)
  | listComma _ ih => exact .listComma (ih hordered hlast)
  | listSkip h hkind _ ih =>
    exact .listSkip h hkind (ih (h.consumes.ordered hordered) (h.consumes.dotsLast hlast))
  | call hargs hdotslast hitems hdots hhas hcommas hcomma hclose _ ihargs ih =>
    obtain ⟨_, htaken⟩ := hargs.consumes
    obtain ⟨_, hclosed⟩ := hclose.consumes
    have hall := htaken.append hclosed
    rw [hitems, hcommas, hcomma, hdots]
    exact plain_args (ihargs hordered hlast) hordered (hdotslast hlast)
      (.token hclose rfl rfl (ih (hall.ordered hordered) (hall.dotsLast hlast)))

end ReadsRows

end GoTrace
