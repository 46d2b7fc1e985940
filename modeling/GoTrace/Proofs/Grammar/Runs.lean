import GoTrace.Proofs.Grammar.Reading
import GoTrace.Proofs.Layout.Nodes

/-!
# Reading runs of constructs

Constructs stand in runs in three ways: with a comma between any two (`ReadsRun`), with a comma
behind each that may be missing (`ReadsItems`), and each on a line of its own (`ReadsLines`). Each
way comes from one loop of the grammar and ends in the same row of a layout.
-/

namespace GoTrace

/-- Constructs with commas between them are read. -/
inductive ReadsRun : List Layout → List Offset → ParseState → ParseState → Prop
  | one {l : Layout} {st st' : ParseState} (h : l.Reads st st') : ReadsRun [l] [] st st'
  | more {l : Layout} {items : List Layout} {comma : Offset} {commas : List Offset}
      {st st₁ st₂ st' : ParseState} (h : l.Reads st st₁)
      (hcomma : Marks (.operator .comma) comma st₁ st₂) (rest : ReadsRun items commas st₂ st') :
      ReadsRun (l :: items) (comma :: commas) st st'

/-- Constructs with commas behind them are read. -/
inductive ReadsItems : List (Layout × Option Offset) → ParseState → ParseState → Prop
  | nil {st : ParseState} : ReadsItems [] st st
  | cons {l : Layout} {comma? : Option Offset} {items : List (Layout × Option Offset)}
      {st st₁ st₂ st' : ParseState} (h : l.Reads st st₁)
      (hcomma : MarksOpt (.operator .comma) comma? st₁ st₂) (rest : ReadsItems items st₂ st') :
      ReadsItems ((l, comma?) :: items) st st'

/-- Constructs on lines of their own are read. -/
inductive ReadsLines : List Layout → ParseState → ParseState → Prop
  | nil {st : ParseState} : ReadsLines [] st st
  | cons {l : Layout} {items : List Layout} {st st₁ st₂ st' : ParseState} (h : l.Reads st st₁)
      (hskip : Skips st₁ st₂) (rest : ReadsLines items st₂ st') : ReadsLines (l :: items) st st'

section

variable {stray : Bool} {rows : List Row} {q : Point} {place : Offset} {st st' : ParseState}
  {items : List Layout} {commas : List Offset}

/-! ## The rows of runs -/

/-- A run has a construct. -/
theorem ReadsRun.ne_nil (h : ReadsRun items commas st st') : items ≠ [] := by
  cases h <;> simp

/-- A run of one construct is that construct. -/
theorem ReadsRun.lone {l : Layout} (h : ReadsRun [l] commas st st') : l.Reads st st' := by
  cases h with
  | one h => exact h
  | more _ _ rest => exact absurd rfl rest.ne_nil

/-- A run begins with its first construct. -/
theorem ReadsRun.opens (h : ReadsRun items commas st st') :
    Opens (startOfFirst items place) st := by
  cases h with
  | one h | more h _ _ => exact h.1

/-- A row for a run reads the run. -/
theorem ReadsRun.list (h : ReadsRun items commas st st')
    (rest : ReadsRows true stray rows ⟨stopOfLast items place, st'⟩ q) :
    ReadsRows true stray (.list items commas :: rows) ⟨place, st⟩ q := by
  induction h generalizing place with
  | one h =>
    rw [stopOfLast_cons] at rest
    exact .listItem (.item h (.listDone rest))
  | more h hcomma hrun ih =>
    rw [stopOfLast_cons, stopOfLast_eq hrun.ne_nil _ _] at rest
    exact .listItem (.item h (.listComma (.token hcomma rfl rfl (ih rest))))

/-- A row for constructs with commas behind them reads these. -/
theorem ReadsItems.list {items : List (Layout × Option Offset)} (h : ReadsItems items st st')
    (rest : ∀ place, ReadsRows true stray rows ⟨place, st'⟩ q) :
    ReadsRows true stray (.list (items.map Prod.fst) (items.filterMap Prod.snd) :: rows)
      ⟨place, st⟩ q := by
  induction h generalizing place with
  | nil => exact .listDone (rest place)
  | @cons l comma? items st st₁ st₂ st' h hcomma hitems ih =>
    rw [List.map_cons, List.filterMap_cons]
    refine .listItem (.item h ?_)
    cases comma? with
    | none =>
      obtain rfl : st₁ = st₂ := hcomma
      exact ih rest
    | some comma => exact .listComma (.token hcomma rfl rfl (ih rest))

/-- Constructs with commas behind them are read one list after the other. -/
theorem ReadsItems.append {items items' : List (Layout × Option Offset)} {st'' : ParseState}
    (h : ReadsItems items st st') (h' : ReadsItems items' st' st'') :
    ReadsItems (items ++ items') st st'' := by
  induction h with
  | nil => exact h'
  | cons h hcomma _ ih => exact .cons h hcomma (ih h')

/-- Constructs with commas behind them begin with the first of them. -/
theorem ReadsItems.opens {items : List (Layout × Option Offset)} (h : ReadsItems items st st')
    (hne : items ≠ []) : Opens (startOfFirst (items.map Prod.fst) place) st := by
  cases h with
  | nil => exact absurd rfl hne
  | cons h _ _ => exact h.1

/-- A row for constructs on lines of their own reads these. -/
theorem ReadsLines.list (h : ReadsLines items st st')
    (rest : ReadsRows true stray rows ⟨stopOfLast items place, st'⟩ q) :
    ReadsRows true stray (.list items [] :: rows) ⟨place, st⟩ q := by
  induction h generalizing place with
  | nil => exact .listDone rest
  | cons h hskip hlines ih =>
    rw [stopOfLast_cons] at rest
    exact .listItem (.item h (.skip hskip (ih rest)))

end

/-! ## The loops of runs -/

namespace Parser

variable {α : Type} {ctx : ParseContext} {st st' : ParseState}

/-- The parser reads the layout of what it returns. -/
def Lays (p : Parser α) (layout : α → Layout) : Prop :=
  ∀ {ctx st x st'}, p.Yields ctx st x st' → (layout x).Reads st st'

/-- A part that is only looked for under some condition is read, if it is there. -/
theorem readsOpt_of_ite {layout : α → Layout} {p : Parser α} (hp : p.Lays layout) {c : Prop}
    [Decidable c] {x? : Option α}
    (h : (if c then some <$> p else pure none).Yields ctx st x? st') :
    ReadsOpt (x?.map layout) st st' := by
  split at h
  · obtain ⟨x, hx, rfl⟩ := yields_map.1 h
    exact hp hx
  · obtain ⟨rfl, rfl⟩ := yields_pure.1 h
    exact rfl

/-- What may be missing is read if it is read where it stands, and looked for last. -/
theorem readsOpt_of_ite_none {layout : α → Layout} {p : Parser α} (hp : p.Lays layout) {c : Prop}
    [Decidable c] {x? : Option α}
    (h : (if c then pure none else some <$> p).Yields ctx st x? st') :
    ReadsOpt (x?.map layout) st st' := by
  rw [← ite_not] at h
  exact readsOpt_of_ite hp h

/-- An item with the end of its line is read. -/
theorem readsLine {layout : α → Layout} {p : Parser α} (hp : p.Lays layout) {close : Operator}
    {x : α}
    (h : Yields (do let x ← p; endOfLine close; return x) ctx st x st') :
    ∃ st₁, (layout x).Reads st st₁ ∧ Skips st₁ st' := by
  obtain ⟨x, st₁, hx, h⟩ := yields_bind.1 h
  obtain ⟨_, _, hline, h⟩ := yields_bind.1 h
  obtain ⟨rfl, rfl⟩ := yields_pure.1 h
  exact ⟨st₁, hp hx, skips_of_endOfLine hline⟩

/-- Items on lines of their own are read, each with the end of its line. -/
theorem readsLines_of_many {layout : α → Layout} {done : Parser Bool} {item : Parser α}
    {v : ParseState → Bool} (hdone : done.Peeks v)
    (hitem : ∀ {ctx st x st'}, v st = false → item.Yields ctx st x st' →
      ∃ st₁, (layout x).Reads st st₁ ∧ Skips st₁ st') {xs : List α}
    (h : (many done item).Yields ctx st xs st') : ReadsLines (xs.map layout) st st' := by
  replace h := collected_of_collect h
  induction h with
  | done h =>
    obtain ⟨-, rfl⟩ := (yields_of_peeks hdone).1 h
    exact .nil
  | last _ h =>
    obtain ⟨x, _, -, h⟩ := yields_bind.1 h
    cases (yields_pure.1 h).1
  | next hmore h _ ih =>
    obtain ⟨hv, rfl⟩ := (yields_of_peeks hdone).1 hmore
    obtain ⟨x, _, hx, h⟩ := yields_bind.1 h
    obtain ⟨heq, rfl⟩ := yields_pure.1 h
    obtain ⟨rfl, -⟩ := Prod.mk.inj heq
    obtain ⟨st₁, hreads, hskip⟩ := hitem hv hx
    exact .cons hreads hskip ih

/-- A loop stops where it is done. -/
theorem done_of_many {done : Parser Bool} {item : Parser α} {v : ParseState → Bool}
    (hdone : done.Peeks v) {xs : List α} (h : (many done item).Yields ctx st xs st') :
    v st' = true := by
  replace h := collected_of_collect h
  induction h with
  | done h =>
    obtain ⟨hv, rfl⟩ := (yields_of_peeks hdone).1 h
    exact hv
  | last _ h =>
    obtain ⟨x, _, -, h⟩ := yields_bind.1 h
    cases (yields_pure.1 h).1
  | next _ _ _ ih => exact ih

private theorem peeks_not_nextIsOp (op : Operator) :
    Peeks (do return !(← nextIsOp op)) fun st => !(st.nextKind? == some (.operator op)) :=
  fun _ _ => rfl

/-- Items with commas between them are read as a run. -/
theorem readsRun_of_commaSeparated {layout : α → Layout} {item : Parser α} (hitem : item.Lays layout)
    {xs : List α} {commas : List Offset} (h : (commaSeparated item).Yields ctx st (xs, commas) st') :
    ReadsRun (xs.map layout) commas st st' := by
  obtain ⟨first, st₁, hfirst, htail⟩ := yields_bind.1 h
  obtain ⟨rest, st₂, hrest, hend⟩ := yields_bind.1 htail
  obtain ⟨heq, rfl⟩ := yields_pure.1 hend
  obtain ⟨rfl, rfl⟩ := Prod.mk.inj heq
  replace hfirst := hitem hfirst
  replace hrest := collected_of_collect hrest
  clear h htail hend heq
  -- each further item is read behind a comma that is seen before it is taken
  induction hrest generalizing st first with
  | done h =>
    obtain ⟨-, rfl⟩ := (yields_of_peeks (peeks_not_nextIsOp _)).1 h
    exact .one hfirst
  | last _ h =>
    obtain ⟨x, _, -, h⟩ := yields_bind.1 h
    cases (yields_pure.1 h).1
  | next hmore h _ ih =>
    obtain ⟨hcomma, rfl⟩ := (yields_of_peeks (peeks_not_nextIsOp _)).1 hmore
    obtain ⟨⟨comma, x⟩, _, hx, h⟩ := yields_bind.1 h
    obtain ⟨heq, rfl⟩ := yields_pure.1 h
    obtain ⟨rfl, -⟩ := Prod.mk.inj heq
    obtain ⟨place, _, hplace, hx⟩ := yields_bind.1 hx
    obtain ⟨y, _, hy, hx⟩ := yields_bind.1 hx
    obtain ⟨heq, rfl⟩ := yields_pure.1 hx
    obtain ⟨rfl, rfl⟩ := Prod.mk.inj heq
    rw [Bool.not_eq_false', beq_iff_eq] at hcomma
    exact .more hfirst (marks_of_takePlace hplace hcomma) (ih _ (hitem hy))

end Parser

end GoTrace
