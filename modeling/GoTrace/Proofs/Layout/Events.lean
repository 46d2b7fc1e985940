import GoTrace.Layout.Event

/-!
# The events of rows

What the events of a layout say about its tokens, one row at a time. The commas of a run are put
between its constructs by their offsets, so a run is taken apart from the front only if it is known
what comes first: `runEvents_item` and `runEvents_comma` are the two ways.
-/

namespace GoTrace

/-- The place and the text of a token event. -/
def Event.word? : Event → Option (Offset × String)
  | .token _ place text => some (place, text)
  | _ => none

/-- The places and texts of the tokens among some events, in order. -/
def Event.words (events : List Event) : List (Offset × String) := events.filterMap Event.word?

@[simp]
theorem Event.words_append {es es' : List Event} :
    Event.words (es ++ es') = Event.words es ++ Event.words es' := List.filterMap_append

/-- Whether a row stands for no token and no construct. -/
def Row.isSilent : Row → Bool
  | .token _ none | .lexeme none | .checkpoint _ _ | .child none => true
  | .token _ (some _) | .lexeme (some _) | .child (some _) | .list _ _ => false

/-- The place and text of the token that a row stands for. -/
def Row.word? : Row → Option (Offset × String)
  | .token text (some place) => some (place, text)
  | .lexeme lexeme? => lexeme?
  | .token _ none | .checkpoint _ _ | .child _ | .list _ _ => none

/-- Where the tokens and constructs of a row start. -/
def Row.heads : Row → List Offset
  | .list items separators => items.map Layout.start ++ separators
  | .child layout? => layout?.toList.map Layout.start
  | .token _ place? => place?.toList
  | .lexeme lexeme? => lexeme?.toList.map Prod.fst
  | .checkpoint _ _ => []

variable {owner : NodeKind} {depth : Nat}

/-! ## Single rows -/

/-- A silent row has no events but a checkpoint. -/
theorem Row.events_of_isSilent (owner : NodeKind) (depth : Nat) {row : Row} (h : row.isSilent) :
    row.events owner depth = [] ∨ ∃ label, row.events owner depth = [.checkpoint owner label] := by
  cases row with
  | token _ place? => cases place? <;> simp_all [isSilent, events]
  | lexeme lexeme? => cases lexeme? <;> simp_all [isSilent, events]
  | checkpoint label present => cases present <;> simp [events]
  | child layout? => cases layout? <;> simp_all [isSilent, events]
  | list items separators => cases h

/-- A silent row has no tokens. -/
theorem Row.words_of_isSilent {row : Row} (h : row.isSilent) :
    Event.words (row.events owner depth) = [] := by
  rcases Row.events_of_isSilent owner depth h with h | ⟨label, h⟩ <;> rw [h] <;> rfl

/-- A checkpoint has no tokens. -/
theorem Row.words_checkpoint {label : String} {present : Bool} :
    Event.words (Row.events owner depth (.checkpoint label present)) = [] := words_of_isSilent rfl

/-- A row for a token that may be missing has that token. -/
theorem Row.words_token {text : String} {place? : Option Offset} :
    Event.words (Row.events owner depth (.token text place?)) = place?.toList.map (·, text) := by
  cases place? <;> rfl

/-- A silent row has no heads. -/
theorem Row.heads_of_isSilent {row : Row} (h : row.isSilent) : row.heads = [] := by
  cases row with
  | token text place? => cases place? <;> simp_all [isSilent, heads]
  | lexeme lexeme? => cases lexeme? <;> simp_all [isSilent, heads]
  | checkpoint label present => rfl
  | child layout? => cases layout? <;> simp_all [isSilent, heads]
  | list items separators => cases h

/-- A row for a token has that event and no other. -/
theorem Row.events_of_word? {row : Row} {place : Offset} {text : String}
    (h : row.word? = some (place, text)) :
    row.events owner depth = [.token owner place text] := by
  cases row with
  | token text place? => cases place? <;> simp_all [word?, events]
  | lexeme lexeme? => cases lexeme? <;> simp_all [word?, events]
  | checkpoint label present => cases h
  | child layout? => cases h
  | list items separators => cases h

/-- A row for a token starts where the token does. -/
theorem Row.heads_of_word? {row : Row} {place : Offset} {text : String}
    (h : row.word? = some (place, text)) : row.heads = [place] := by
  cases row with
  | token text place? => cases place? <;> simp_all [word?, heads]
  | lexeme lexeme? => cases lexeme? <;> simp_all [word?, heads]
  | checkpoint label present => cases h
  | child layout? => cases h
  | list items separators => cases h

/-- A row for a token has no constructs. -/
theorem Row.parts_of_word? {row : Row} {place : Offset} {text : String}
    (h : row.word? = some (place, text)) : row.parts = [] := by
  cases row with
  | token text place? => rfl
  | lexeme lexeme? => rfl
  | checkpoint label present => rfl
  | child layout? => cases h
  | list items separators => cases h

/-- A silent row has no constructs. -/
theorem Row.parts_of_isSilent {row : Row} (h : row.isSilent) : row.parts = [] := by
  cases row with
  | token text place? => rfl
  | lexeme lexeme? => rfl
  | checkpoint label present => rfl
  | child layout? => cases layout? <;> simp_all [isSilent, parts]
  | list items separators => cases h

/-- The tokens of a construct are those of its rows. -/
theorem Layout.words_node {kind : NodeKind} {span : Span} {rows : List Row} :
    Event.words ((Layout.node kind span rows).events depth) =
      Event.words (Row.allEvents kind (depth + 1) rows) := by
  rw [Layout.events, Event.words_append]
  exact List.append_nil _

/-- The tokens of a row are among those of the rows. -/
theorem Row.words_subset {row : Row} {rows : List Row} (h : row ∈ rows) :
    Event.words (row.events owner depth) ⊆ Event.words (Row.allEvents owner depth rows) := by
  induction rows with
  | nil => cases h
  | cons other rows ih =>
    rw [Row.allEvents, Event.words_append]
    rcases List.mem_cons.1 h with rfl | h
    · exact List.subset_append_left ..
    · exact List.Subset.trans (ih h) (List.subset_append_right ..)

/-! ## Runs -/

namespace Layout

variable {item : Layout} {items : List Layout} {place : Offset} {places : List Offset}

/-- A construct that no comma is in front of comes first. -/
theorem runEvents_item (h : ∀ sep ∈ places.head?, item.start ≤ sep) :
    runEvents owner depth (item :: items) places =
      item.events depth ++ runEvents owner depth items places := by
  have hnot : ∀ sep ∈ places.head?, ¬sep < item.start := fun sep hsep =>
    Nat.not_lt.2 (Offset.le_def.1 (h sep hsep))
  cases places with
  | nil => rfl
  | cons sep places =>
    have hsep := hnot sep rfl
    rw [runEvents, List.takeWhile_cons_of_neg (by simpa using hsep),
      List.dropWhile_cons_of_neg (by simpa using hsep)]
    rfl

/-- A comma that no construct is in front of comes first. -/
theorem runEvents_comma (h : ∀ item ∈ items.head?, place < item.start) :
    runEvents owner depth items (place :: places) =
      .token owner place "," :: runEvents owner depth items places := by
  cases items with
  | nil => rfl
  | cons item items =>
    have hlt := h item rfl
    rw [runEvents, runEvents, List.takeWhile_cons_of_pos (by simpa using hlt),
      List.dropWhile_cons_of_pos (by simpa using hlt)]
    rfl

/-- The events of a run are its commas and those of its constructs. -/
theorem of_mem_runEvents {e : Event} (h : e ∈ runEvents owner depth items places) :
    (∃ item ∈ items, e ∈ item.events depth) ∨ ∃ place ∈ places, e = .token owner place "," := by
  have hcommas : ∀ {places : List Offset}, e ∈ Event.commas owner places →
      ∃ place ∈ places, e = .token owner place "," := by
    intro places h
    obtain ⟨place, hplace, rfl⟩ := List.mem_map.1 h
    exact ⟨place, hplace, rfl⟩
  induction items generalizing places with
  | nil => exact .inr (hcommas h)
  | cons item items ih =>
    rw [runEvents, List.mem_append, List.mem_append] at h
    rcases h with (h | h) | h
    · obtain ⟨place, hplace, he⟩ := hcommas h
      exact .inr ⟨place, (List.takeWhile_prefix _).subset hplace, he⟩
    · exact .inl ⟨item, List.mem_cons_self, h⟩
    · rcases ih h with ⟨other, hother, he⟩ | ⟨place, hplace, he⟩
      · exact .inl ⟨other, List.mem_cons_of_mem item hother, he⟩
      · exact .inr ⟨place, (List.dropWhile_suffix _).subset hplace, he⟩

end Layout

/-! ## Nesting -/

mutual

/-- The number of constructs inside each other, the construct itself included. -/
def Layout.height : Layout → Nat
  | .node _ _ rows => Row.heights rows + 1
  | .placeholder _ _ => 1

/-- The number of constructs inside each other in a row. -/
def Row.height : Row → Nat
  | .child none => 0
  | .child (some layout) => layout.height
  | .list items _ => Layout.heights items
  | .token _ _ | .lexeme _ | .checkpoint _ _ => 0

/-- The number of constructs inside each other in some rows. -/
def Row.heights : List Row → Nat
  | [] => 0
  | row :: rows => max row.height (Row.heights rows)

/-- The number of constructs inside each other in some constructs. -/
def Layout.heights : List Layout → Nat
  | [] => 0
  | layout :: layouts => max layout.height (Layout.heights layouts)

end

/-- A run nests as deep as its first construct and the others. -/
theorem Row.heights_listItem {item : Layout} {items : List Layout} {separators : List Offset}
    {rows : List Row} :
    Row.heights (.list (item :: items) separators :: rows) =
      Row.heights (.child (some item) :: .list items separators :: rows) := by
  simp only [Row.heights, Row.height, Layout.heights, Nat.max_assoc]

/-- A comma does not nest. -/
theorem Row.heights_listComma {items : List Layout} {separator : Offset} {separators : List Offset}
    {rows : List Row} :
    Row.heights (.list items (separator :: separators) :: rows) =
      Row.heights (.token "," (some separator) :: .list items separators :: rows) := by
  simp only [Row.heights, Row.height, Nat.zero_max]

end GoTrace
