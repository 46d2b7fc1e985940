import GoTrace.Proofs.Source.LineColumn
import GoTrace.Proofs.Trace.Steps

/-!
# What a trace says about its text

A trace accounts for its text from front to back: each of its fragments stands behind a stretch of
whitespace, for which there are markers, and covers the text that it carries, if it carries one. The
relation `Accounts` says this with lists of characters. Its proof goes along the run of the cursor:
`accounts_scanFrom` is the step for a gap, `accounts_step` that for an event, and
`File.accounts_of_trace` is what a whole trace comes to. Nothing is asked of the tree: a tree that
does not fit its text has no trace.
-/

namespace GoTrace

open String (utf8Len)

/-- A stretch of whitespace `w` behind the characters `front`, and its markers. -/
def Blank (table : LineTable) (front w : List Char) (owned : Bool) (gs : List Fragment) : Prop :=
  (∀ c ∈ w, Gap.isSpace c) ∧
    ∃ start : Offset, start.toNat = utf8Len front ∧ Gap.markers table start w owned = .ok gs

/-- The fragments account for the text from behind the characters `front` up to `stop`. The comments
`pending` are those that stand in between, and `owned` says whether a line comment ends `front`. -/
inductive Accounts (table : LineTable) (stop : Offset) :
    (front : List Char) → (pending : List Comment) → (owned : Bool) → List Fragment → Prop
  /-- Nothing is left. -/
  | done {front rest : List Char} {owned : Bool} (htext : table.text.toList = front ++ rest)
      (hstop : utf8Len front = stop.toNat) : Accounts table stop front [] owned []
  /-- Whitespace, and behind it a fragment of a construct. -/
  | mark {front w rest : List Char} {pending : List Comment} {owned : Bool} {m : Mark}
      {p : Position} {gs fs : List Fragment}
      (htext : table.text.toList = front ++ w ++ m.text.toList ++ rest)
      (hblank : Blank table front w owned gs) (hmark : m.construct?.isSome)
      (hp : table.position? p.offset = some p) (hplace : p.offset.toNat = utf8Len (front ++ w))
      (next : Accounts table stop (front ++ w ++ m.text.toList) pending false fs) :
      Accounts table stop front pending owned (gs ++ ⟨m, p⟩ :: fs)
  /-- Whitespace, and behind it the next comment. -/
  | comment {front w rest : List Char} {c : Comment} {pending : List Comment} {owned : Bool}
      {p : Position} {gs fs : List Fragment}
      (htext : table.text.toList = front ++ w ++ c.text.toList ++ rest)
      (hblank : Blank table front w owned gs) (hp : table.position? p.offset = some p)
      (hplace : p.offset.toNat = utf8Len (front ++ w)) (hstart : c.span.start = p.offset)
      (hstop : c.span.stop.toNat = utf8Len (front ++ w ++ c.text.toList))
      (next : Accounts table stop (front ++ w ++ c.text.toList) pending c.isLine fs) :
      Accounts table stop front (c :: pending) owned (gs ++ ⟨.comment c.text, p⟩ :: fs)

/-! ## Gaps -/

variable {table : LineTable}

/-- The empty stretch of whitespace has no markers. -/
theorem blank_nil {front : List Char} {place : Offset} {owned : Bool}
    (h : utf8Len front = place.toNat) : Blank table front [] owned [] :=
  ⟨by simp, place, h.symm, rfl⟩

/-- Markers are line breaks and blank lines. -/
theorem isLineMarker_of_markers {start : Offset} {w : List Char} {owned : Bool}
    {gs : List Fragment} (h : Gap.markers table start w owned = .ok gs) :
    ∀ g ∈ gs, g.mark.kind.isLineMarker := by
  unfold Gap.markers at h
  split at h
  · rw [Except.ok.injEq] at h
    simp [← h]
  · dsimp only at h
    -- the two markers come and go on their own
    split at h <;> split at h <;>
      simp only [bind_eq_ok_iff, pure_eq_ok_iff, exists_eq_left'] at h
    · obtain ⟨_, -, rfl⟩ := h
      simp [Mark.kind, MarkKind.isLineMarker]
    · simp [← h]
    · obtain ⟨_, -, _, -, rfl⟩ := h
      simp [Mark.kind, MarkKind.isLineMarker]
    · obtain ⟨_, -, rfl⟩ := h
      simp [Mark.kind, MarkKind.isLineMarker]

/-- Just trivia belong to no construct. -/
theorem Mark.construct?_eq_none_iff {m : Mark} : m.construct? = none ↔ m.kind.isTrivia := by
  cases m <;> simp [construct?, kind, MarkKind.isTrivia]

/-- Line markers belong to no construct. -/
theorem Mark.construct?_of_isLineMarker {m : Mark} (h : m.kind.isLineMarker) :
    m.construct? = none := by
  cases m <;> simp_all [construct?, kind, MarkKind.isLineMarker]

/-- What belongs to a construct is no line marker. -/
theorem Mark.isLineMarker_of_construct {m : Mark} (h : m.construct?.isSome) :
    m.kind.isLineMarker = false := by
  rw [← Bool.not_eq_true]
  intro hline
  rw [construct?_of_isLineMarker hline] at h
  cases h

/-- Line markers are no comments. -/
theorem Mark.ne_comment_of_isLineMarker {m : Mark} (h : m.kind.isLineMarker) :
    m.kind ≠ .comment := by
  intro hkind
  rw [hkind] at h
  cases h

/-- What belongs to a construct is no comment. -/
theorem Mark.ne_comment_of_construct {m : Mark} (h : m.construct?.isSome) : m.kind ≠ .comment := by
  intro hkind
  rw [construct?_eq_none_iff.2 (show m.kind.isTrivia by rw [hkind]; rfl)] at h
  cases h

/-- A gap without comments is a stretch of whitespace. -/
theorem blank_of_whitespace {start stop : Offset} {owned : Bool} {gs : List Fragment}
    {front rest : List Char} (h : Gap.whitespace table start stop owned = .ok gs)
    (htext : table.text.toList = front ++ rest) (hfront : utf8Len front = start.toNat) :
    ∃ w rest', rest = w ++ rest' ∧ utf8Len (front ++ w) = stop.toNat ∧
      Blank table front w owned gs := by
  rw [Gap.whitespace] at h
  split at h
  · rename_i heq
    rw [Except.ok.injEq] at h
    subst h
    exact ⟨[], rest, rfl, by rw [List.append_nil, hfront, heq], blank_nil hfront⟩
  · rw [bind_eq_ok_iff] at h
    obtain ⟨text, hslice, h⟩ := h
    dsimp only at h
    split at h
    · simp [misplaced] at h
    rename_i hlen
    obtain ⟨a, b, htext', ha, hb⟩ :=
      LineTable.slice?_eq_some_iff.1 (LineTable.textOf_eq_ok_iff.1 hslice)
    obtain ⟨rfl, rfl⟩ := cut_unique (by rw [← htext, htext', List.append_assoc])
      (hfront.trans ha.symm)
    refine ⟨text.toList, b, rfl, ?_, ?_, start, hfront.symm, h⟩
    · rw [String.utf8Len_append, hb]
    · -- the characters that are no whitespace would be missing from `takeWhile`
      have hall : text.toList.takeWhile Gap.isSpace = text.toList :=
        (List.takeWhile_prefix _).eq_of_length_le (Nat.le_of_not_lt hlen)
      intro c hc
      rw [← hall] at hc
      exact List.all_eq_true.1 List.all_takeWhile c hc

/-- A comment of a gap stands in the text where its span says. -/
theorem comment_eq_ok {stop : Offset} {c : Comment} {f : Fragment}
    (h : Gap.comment table stop c = .ok f) :
    ∃ p, f = ⟨.comment c.text, p⟩ ∧ table.position? c.span.start = some p ∧
      table.slice? c.span = some c.text ∧ c.span.stop ≤ stop := by
  rw [Gap.comment] at h
  split at h
  · simp [misplaced] at h
  rename_i hstop
  rw [bind_eq_ok_iff] at h
  obtain ⟨text, hslice, h⟩ := h
  split at h
  · rename_i heq
    obtain ⟨p, hp, h⟩ := bind_eq_ok_iff.1 h
    rw [pure_eq_ok_iff] at h
    refine ⟨p, by rw [← h, heq], LineTable.resolve_eq_ok_iff.1 hp, ?_, Nat.le_of_not_lt hstop⟩
    rw [LineTable.textOf_eq_ok_iff.1 hslice, heq]
  · simp [misplaced] at h

/-- Whitespace has no fragments of constructs. -/
private theorem unowned_whitespace {start stop : Offset} {owned : Bool} {gs : List Fragment}
    (h : Gap.whitespace table start stop owned = .ok gs) : ∀ g ∈ gs, g.mark.construct? = none := by
  rw [Gap.whitespace] at h
  split at h
  · obtain rfl := Except.ok.inj h
    simp
  obtain ⟨text, -, h⟩ := bind_eq_ok_iff.1 h
  dsimp only at h
  split at h
  · simp [misplaced] at h
  · exact fun g hg => Mark.construct?_of_isLineMarker (isLineMarker_of_markers h g hg)

/-- A gap has no fragments of constructs. -/
private theorem unowned_scanFrom {start stop : Offset} {pending left : List Comment} {owned : Bool}
    {fs : List Fragment} (h : Gap.scanFrom table stop pending start owned = .ok (fs, left)) :
    ∀ f ∈ fs, f.mark.construct? = none := by
  refine Gap.scanFrom_induction (P := fun _ _ _ fs => ∀ f ∈ fs, f.mark.construct? = none)
    unowned_whitespace ?_ h
  intro c pending start owned gs f hs hgs hf ih
  obtain ⟨p, rfl, -⟩ := comment_eq_ok hf
  exact List.forall_mem_append.2 ⟨unowned_whitespace hgs, List.forall_mem_cons.2 ⟨rfl, ih⟩⟩

/-- **A gap accounts for its text.** What is behind the gap has to account for the rest, from
the last stretch of whitespace of the gap on. -/
theorem accounts_scanFrom {stop start final : Offset} {pending left : List Comment} {owned : Bool}
    {fs tail : List Fragment} {front rest : List Char}
    (h : Gap.scanFrom table stop pending start owned = .ok (fs, left))
    (htext : table.text.toList = front ++ rest) (hfront : utf8Len front = start.toNat)
    (next : ∀ {front w rest owned gs}, table.text.toList = front ++ w ++ rest →
      utf8Len (front ++ w) = stop.toNat → Blank table front w owned gs →
      Accounts table final front left owned (gs ++ tail)) :
    Accounts table final front pending owned (fs ++ tail) := by
  refine Gap.scanFrom_induction (P := fun pending start owned fs => ∀ front rest,
    table.text.toList = front ++ rest → utf8Len front = start.toNat →
      Accounts table final front pending owned (fs ++ tail)) ?_ ?_ h front rest htext hfront
  · intro start owned gs hgs front rest htext hfront
    obtain ⟨w, rest', rfl, hlen, hblank⟩ := blank_of_whitespace hgs htext hfront
    exact next (by rw [htext, List.append_assoc]) hlen hblank
  · intro c pending start owned gs f hs hgs hf ih front rest htext hfront
    obtain ⟨w, rest', rfl, hlen, hblank⟩ := blank_of_whitespace hgs htext hfront
    obtain ⟨p, rfl, hp, hslice, -⟩ := comment_eq_ok hf
    have hoffset := LineTable.offset_of_position? hp
    obtain ⟨a, b, htext', ha, hb⟩ := LineTable.slice?_eq_some_iff.1 hslice
    obtain ⟨rfl, rfl⟩ := cut_unique (a := front ++ w) (b := rest') (c := a)
      (by rw [List.append_assoc, ← htext, htext', List.append_assoc]) (hlen.trans ha.symm)
    have hstop : c.span.stop.toNat = utf8Len (front ++ w ++ c.text.toList) := by
      rw [String.utf8Len_append, hb]
    rw [List.append_assoc, List.cons_append]
    exact .comment htext' hblank (by rw [hoffset, hp]) (by rw [hoffset, hlen]) hoffset.symm hstop
      (ih _ b htext' hstop.symm)

/-! ## Events -/

variable {options : Options} {c c' : Cursor}

/-- Moving on adds no fragments of constructs. -/
theorem unowned_advanceTo {place : Offset} {fs : List Fragment}
    (h : c.advanceTo table place = .ok (fs, c')) : ∀ f ∈ fs, f.mark.construct? = none := by
  rcases (Cursor.advanceTo_eq_ok h).2 with hscan | ⟨rfl, -⟩
  · exact unowned_scanFrom hscan
  · simp

/-- Moving on accounts for the text up to the new place. -/
theorem accounts_advanceTo {place final : Offset} {fs tail : List Fragment} {front rest : List Char}
    (h : c.advanceTo table place = .ok (fs, c')) (htext : table.text.toList = front ++ rest)
    (hfront : utf8Len front = c.place.toNat)
    (next : ∀ {front w rest owned gs}, table.text.toList = front ++ w ++ rest →
      utf8Len (front ++ w) = place.toNat → Blank table front w owned gs →
      Accounts table final front c'.pending owned (gs ++ tail)) :
    Accounts table final front c.pending false (fs ++ tail) := by
  obtain ⟨hplace, hscan | ⟨rfl, rfl⟩⟩ := Cursor.advanceTo_eq_ok h
  · exact accounts_scanFrom hscan htext hfront next
  · refine next (show _ = front ++ [] ++ rest by rw [htext, List.append_nil]) ?_ (blank_nil hfront)
    rw [List.append_nil, hfront, hplace]

/-- A mark accounts for the text up to its place. -/
private theorem accounts_markAt {place final : Offset} {m : Mark} {fs tail : List Fragment}
    {front rest : List Char} (h : c.markAt table place m = .ok (fs, c'))
    (hm : m.construct?.isSome) (hempty : m.text = "") (htext : table.text.toList = front ++ rest)
    (hfront : utf8Len front = c.place.toNat)
    (next : ∀ {front rest}, table.text.toList = front ++ rest → utf8Len front = c'.place.toNat →
      Accounts table final front c'.pending false tail) :
    Accounts table final front c.pending false (fs ++ tail) := by
  obtain ⟨gs, p, hadvance, hp, rfl⟩ := Cursor.markAt_eq_ok_iff.1 h
  have hoffset := LineTable.offset_of_position? hp
  rw [List.append_assoc]
  refine accounts_advanceTo hadvance htext hfront ?_
  intro front' w rest' owned hs htext' hlen hblank
  refine .mark (show _ = front' ++ w ++ m.text.toList ++ rest' by simp [htext', hempty]) hblank hm
    (by rw [hoffset, hp])
    (by rw [hoffset, hlen]) ?_
  rw [hempty, String.toList_empty, List.append_nil]
  exact next htext' (by rw [hlen, Cursor.advanceTo_place hadvance])

/-- A token accounts for the text up to its end. -/
private theorem accounts_takeToken {owner : NodeKind} {place final : Offset} {text : String}
    {fs tail : List Fragment} {front rest : List Char}
    (h : c.takeToken table owner place text = .ok (fs, c'))
    (htext : table.text.toList = front ++ rest) (hfront : utf8Len front = c.place.toNat)
    (next : ∀ {front rest}, table.text.toList = front ++ rest → utf8Len front = c'.place.toNat →
      Accounts table final front c'.pending false tail) :
    Accounts table final front c.pending false (fs ++ tail) := by
  obtain ⟨gs, d, p, hadvance, hslice, hp, rfl, rfl⟩ := Cursor.takeToken_eq_ok_iff.1 h
  have hoffset := LineTable.offset_of_position? hp
  rw [List.append_assoc]
  refine accounts_advanceTo hadvance htext hfront ?_
  intro front' w rest' owned hs htext' hlen hblank
  obtain ⟨a, b, htext'', ha, hb⟩ := LineTable.slice?_eq_some_iff.1 hslice
  obtain ⟨rfl, rfl⟩ := cut_unique (a := front' ++ w) (b := rest') (c := a)
    (by rw [← htext', htext'', List.append_assoc]) (hlen.trans ha.symm)
  refine .mark (m := .token owner text) htext'' hblank rfl (by rw [hoffset, hp])
    (by rw [hoffset, hlen]) ?_
  exact next htext'' (by rw [Mark.text, String.utf8Len_append, hb]; rfl)

/-- **An event accounts for its text**: for the gap in front of it, and for its own. -/
theorem accounts_step {final : Offset} {event : Event} {fs tail : List Fragment}
    {front rest : List Char} (h : c.step options table event = .ok (fs, c'))
    (htext : table.text.toList = front ++ rest) (hfront : utf8Len front = c.place.toNat)
    (next : ∀ {front rest}, table.text.toList = front ++ rest → utf8Len front = c'.place.toNat →
      Accounts table final front c'.pending false tail) :
    Accounts table final front c.pending false (fs ++ tail) := by
  cases event with
  | enter kind place depth =>
    exact accounts_markAt (Cursor.step_enter h).2 rfl rfl htext hfront next
  | leave kind place => exact accounts_markAt h rfl rfl htext hfront next
  | token owner place text => exact accounts_takeToken h htext hfront next
  | checkpoint owner label =>
    obtain ⟨rfl, ⟨-, p, hp, rfl⟩ | ⟨-, rfl⟩⟩ := Cursor.step_checkpoint h
    · have hoffset := LineTable.offset_of_position? hp
      have htext' : table.text.toList =
          front ++ [] ++ (Mark.checkpoint owner label).text.toList ++ rest := by
        simp [htext, Mark.text]
      refine .mark htext' (blank_nil hfront) rfl (by rw [hoffset, hp])
        (by rw [hoffset, List.append_nil, hfront]) ?_
      simp only [Mark.text, String.toList_empty, List.append_nil]
      exact next htext hfront
    · exact next htext hfront
  | refuse kind place => simp [Cursor.step] at h

/-- A run accounts for the text from the place of the cursor on, if what comes behind it accounts
for the rest. -/
theorem accounts_runs {final : Offset} {events : List Event} {fs tail : List Fragment}
    {front rest : List Char} (h : c.Runs options table events fs c')
    (htext : table.text.toList = front ++ rest) (hfront : utf8Len front = c.place.toNat)
    (next : ∀ {front rest}, table.text.toList = front ++ rest → utf8Len front = c'.place.toNat →
      Accounts table final front c'.pending false tail) :
    Accounts table final front c.pending false (fs ++ tail) := by
  induction events generalizing c fs front rest with
  | nil =>
    obtain ⟨rfl, rfl⟩ := h
    exact next htext hfront
  | cons event events ih =>
    obtain ⟨gs, d, hs, hstep, hruns, rfl⟩ := h
    rw [List.append_assoc]
    exact accounts_step hstep htext hfront fun htext' hfront' => ih hruns htext' hfront'

/-- **A trace accounts for its text**, from the beginning to the end of the file. -/
theorem File.accounts_of_trace {file : File} {fragments : List Fragment}
    (h : file.trace table options = .ok fragments) :
    Accounts table file.span.stop [] file.comments false fragments := by
  obtain ⟨c, hruns, hpending⟩ := File.trace_eq_ok_iff.1 h
  have hplace : c.place = file.span.stop := by
    -- the last event leaves the file
    rw [File.events, File.layout, Layout.events, Cursor.runs_append] at hruns
    obtain ⟨_, d, _, -, hlast, -⟩ := hruns
    obtain ⟨_, _, hadvance, -⟩ := Cursor.markAt_eq_ok_iff.1 (Cursor.runs_singleton.1 hlast)
    exact Cursor.advanceTo_place hadvance
  rw [← List.append_nil fragments]
  refine accounts_runs hruns (show _ = [] ++ table.text.toList from rfl) rfl ?_
  intro front rest htext hfront
  rw [hpending]
  exact .done htext (by rw [hfront, hplace])

end GoTrace
