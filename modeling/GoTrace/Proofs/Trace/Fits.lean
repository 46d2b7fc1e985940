import GoTrace.Proofs.Source.Whitespace
import GoTrace.Proofs.Trace.Checkpoints
import GoTrace.Proofs.Trace.Coverage
import GoTrace.Proofs.Trace.Nesting
import GoTrace.Proofs.Trace.Walk

/-!
# Files that fit their text

A file and a text can be put side by side without making a trace: the events of the file ask for
places and texts, and what they leave free are gaps (`gapsFrom`). The two *fit* (`Fits`) if the
events are in order, their tokens stand in the text, and the gaps hold the comments of the file and
whitespace. The walk never fails on what fits. The cursor goes through the gaps one comment at a
time, and what is left fits from wherever it has got to (`Fits.afterComment`, `Fits.afterGap`,
`Fits.afterEvent`). So every check on the way holds, and behind the last event there is no gap for a
comment to be left over in. This is the converse of `trace_covers_text`.
-/

namespace GoTrace

open String (utf8Len)

variable {options : Options} {table : LineTable}

/-! ## Stretches and gaps -/

/-- The bytes from `start` up to, and not including, `stop`. -/
structure Stretch where
  /-- The number of bytes in front of the stretch. -/
  start : Nat
  /-- The number of bytes up to its end. -/
  stop : Nat

/-- The bytes in a stretch. -/
instance : Membership Nat Stretch := ⟨fun s i => s.start ≤ i ∧ i < s.stop⟩

/-- The bytes of an event: those of the text of a token, and none where a construct starts or ends.
A checkpoint has no place of its own. -/
def Event.stretch? : Event → Option Stretch
  | .enter _ place _ | .leave _ place | .refuse _ place => some ⟨place.toNat, place.toNat⟩
  | .token _ place text => some ⟨place.toNat, place.toNat + text.utf8ByteSize⟩
  | .checkpoint _ _ => none

/-- The bytes of some events. -/
def Event.stretches (events : List Event) : List Stretch := events.filterMap Event.stretch?

/-- The bytes of a comment. -/
def Comment.stretch (c : Comment) : Stretch := ⟨c.span.start.toNat, c.span.stop.toNat⟩

/-- The gaps in front of and between some stretches: from byte `n` to the start of the first, and
from the end of each to the start of the next. -/
def gapsFrom : (n : Nat) → List Stretch → List Stretch
  | _, [] => []
  | n, s :: ss => ⟨n, s.start⟩ :: gapsFrom s.stop ss

/-- The string `s` stands in a text at byte `n`. -/
def StandsAt (text : String) (n : Nat) (s : String) : Prop :=
  ∃ front rest, text.toList = front ++ s.toList ++ rest ∧ utf8Len front = n

/-- **Events and comments fit a text** from byte `n` on: the events are in order and stand in the
text, and between them there is nothing but whitespace and the comments. -/
structure Fits (table : LineTable) (n : Nat) (pending : List Comment) (events : List Event) :
    Prop where
  /-- The text of each token stands where the token does. -/
  token : ∀ owner place text, .token owner place text ∈ events →
    StandsAt table.text place.toNat text
  /-- Each event stands between two characters, or at an end of the text. -/
  boundary : ∀ s ∈ Event.stretches events, String.Pos.Raw.isValid table.text ⟨s.start⟩
  /-- No event starts in front of the end of the one before. -/
  forward : ∀ gap ∈ gapsFrom n (Event.stretches events), gap.start ≤ gap.stop
  /-- Each comment has bytes. -/
  nonempty : ∀ c ∈ pending, c.stretch.start < c.stretch.stop
  /-- Each comment starts at or behind the end of those before. -/
  ascending : pending.Pairwise (·.stretch.stop ≤ ·.stretch.start)
  /-- The text of each comment stands where the comment does, and it ends there. -/
  comment : ∀ c ∈ pending, StandsAt table.text c.stretch.start c.text ∧
    c.stretch.stop = c.stretch.start + c.text.utf8ByteSize
  /-- Each comment lies in one gap. -/
  inside : ∀ c ∈ pending, ∃ gap ∈ gapsFrom n (Event.stretches events),
    gap.start ≤ c.stretch.start ∧ c.stretch.stop ≤ gap.stop
  /-- Every other byte of a gap is whitespace. -/
  space : ∀ gap ∈ gapsFrom n (Event.stretches events), ∀ i ∈ gap, (∀ c ∈ pending, i ∉ c.stretch) →
    ∀ h : i < table.text.toByteArray.size, table.text.toByteArray[i] ∈ spaceBytes

/-! ## Boundaries -/

/-- A text that stands at a byte starts at a boundary and ends at one. -/
theorem StandsAt.boundaries {text s : String} {n : Nat} (h : StandsAt text n s) :
    String.Pos.Raw.isValid text ⟨n⟩ ∧ String.Pos.Raw.isValid text ⟨n + s.utf8ByteSize⟩ := by
  obtain ⟨front, rest, htext, rfl⟩ := h
  refine ⟨isValid_iff_cut.2 ⟨front, s.toList ++ rest, by rw [htext, List.append_assoc], rfl⟩,
    isValid_iff_cut.2 ⟨front ++ s.toList, rest, htext, ?_⟩⟩
  rw [String.utf8Len_append, utf8ByteSize_eq]

/-- Bytes of whitespace between two boundaries can be made into fragments. -/
theorem exists_whitespace_of_space (owned : Bool) {start stop : Offset}
    (hstart : String.Pos.Raw.isValid table.text ⟨start.toNat⟩)
    (hstop : String.Pos.Raw.isValid table.text ⟨stop.toNat⟩) (hle : start ≤ stop)
    (hspace : ∀ i, start.toNat ≤ i → i < stop.toNat →
      ∀ h : i < table.text.toByteArray.size, table.text.toByteArray[i] ∈ spaceBytes) :
    ∃ gs, Gap.whitespace table start stop owned = .ok gs := by
  obtain ⟨front, w, rest, htext, hfront, hw⟩ := exists_cut hstart hstop hle
  rw [← hfront, ← hw] at hspace
  exact exists_whitespace owned htext hfront hw (blank_of_space htext hspace)

/-! ## Moving on -/

theorem Event.start_le_stop {event : Event} {s : Stretch} (h : event.stretch? = some s) :
    s.start ≤ s.stop := by
  cases event <;> cases h <;> simp

theorem Event.stretches_cons {event : Event} {events : List Event} {s : Stretch}
    (h : event.stretch? = some s) : stretches (event :: events) = s :: stretches events :=
  List.filterMap_cons_some h

/-- The gaps in front of an event and behind it. -/
theorem gapsFrom_stretches {event : Event} {events : List Event} {n : Nat} {s : Stretch}
    (h : event.stretch? = some s) : gapsFrom n (Event.stretches (event :: events)) =
      ⟨n, s.start⟩ :: gapsFrom s.stop (Event.stretches events) := by
  rw [Event.stretches_cons h, gapsFrom]

/-- No gap starts in front of the first. -/
theorem le_of_mem_gapsFrom {n : Nat} {ss : List Stretch} (hss : ∀ s ∈ ss, s.start ≤ s.stop)
    (hforward : ∀ gap ∈ gapsFrom n ss, gap.start ≤ gap.stop) :
    ∀ gap ∈ gapsFrom n ss, n ≤ gap.start := by
  induction ss generalizing n with
  | nil => simp [gapsFrom]
  | cons s ss ih =>
    rw [gapsFrom, List.forall_mem_cons] at hforward ⊢
    rw [List.forall_mem_cons] at hss
    refine ⟨Nat.le_refl n, fun gap hgap => ?_⟩
    exact Nat.le_trans hforward.1 (Nat.le_trans hss.1 (ih hss.2 hforward.2 gap hgap))

namespace Fits

variable {n : Nat} {c : Comment} {pending : List Comment} {event : Event} {events : List Event}
  {s : Stretch}

/-- An event starts at or behind the place that it fits from. -/
theorem le_event (h : Fits table n pending (event :: events)) (hs : event.stretch? = some s) :
    n ≤ s.start := by
  have hforward := h.forward
  rw [gapsFrom_stretches hs, List.forall_mem_cons] at hforward
  exact hforward.1

/-- An event stands at a boundary. -/
theorem isValid_event (h : Fits table n pending (event :: events)) (hs : event.stretch? = some s) :
    String.Pos.Raw.isValid table.text ⟨s.start⟩ := by
  refine h.boundary s ?_
  rw [Event.stretches_cons hs]
  exact List.mem_cons_self

/-- The gaps behind an event start at or behind its end. -/
theorem le_gap (h : Fits table n pending (event :: events)) (hs : event.stretch? = some s) :
    ∀ gap ∈ gapsFrom s.stop (Event.stretches events), s.stop ≤ gap.start := by
  refine le_of_mem_gapsFrom (fun t ht => ?_) fun gap hgap => h.forward gap ?_
  · obtain ⟨e, -, he⟩ := List.mem_filterMap.1 ht
    exact Event.start_le_stop he
  · rw [gapsFrom_stretches hs]
    exact List.mem_cons_of_mem _ hgap

/-- A comment lies in the gap in front of the next event, or behind that event. -/
theorem inside_first (h : Fits table n pending (event :: events)) (hs : event.stretch? = some s)
    (hc : c ∈ pending) :
    n ≤ c.stretch.start ∧ c.stretch.stop ≤ s.start ∨
      ∃ gap ∈ gapsFrom s.stop (Event.stretches events),
        gap.start ≤ c.stretch.start ∧ c.stretch.stop ≤ gap.stop := by
  obtain ⟨gap, hgap, hin⟩ := h.inside c hc
  rw [gapsFrom_stretches hs] at hgap
  rcases List.mem_cons.1 hgap with rfl | hgap
  · exact .inl hin
  · exact .inr ⟨gap, hgap, hin⟩

/-- **What fits from `n` on fits from further on in the same gap**, with the comments that are left
there. -/
theorem moveTo {m : Nat} {left : List Comment} (h : Fits table n pending (event :: events))
    (hs : event.stretch? = some s) (hn : n ≤ m) (hm : m ≤ s.start) (hleft : left.Sublist pending)
    (hbehind : ∀ c ∈ left, m ≤ c.stretch.start)
    (htaken : ∀ c ∈ pending, c ∈ left ∨ c.stretch.stop ≤ m) :
    Fits table m left (event :: events) := by
  have hforward := h.forward
  have hspace := h.space
  rw [gapsFrom_stretches hs, List.forall_mem_cons] at hforward hspace
  refine
    { h with
      forward := ?_
      nonempty := fun c hc => h.nonempty c (hleft.mem hc)
      ascending := h.ascending.sublist hleft
      comment := fun c hc => h.comment c (hleft.mem hc)
      inside := ?_
      space := ?_ }
  · rw [gapsFrom_stretches hs, List.forall_mem_cons]
    exact ⟨hm, hforward.2⟩
  · intro c hc
    rw [gapsFrom_stretches hs]
    rcases h.inside_first hs (hleft.mem hc) with ⟨-, hstop⟩ | ⟨gap, hgap, hin⟩
    · exact ⟨_, List.mem_cons_self, hbehind c hc, hstop⟩
    · exact ⟨gap, List.mem_cons_of_mem _ hgap, hin⟩
  · -- the comments that are taken are in front of what is left of the gap
    have hout : ∀ i, m ≤ i → (∀ c ∈ left, i ∉ c.stretch) → ∀ c ∈ pending, i ∉ c.stretch := by
      intro i hi hout c hc hmem
      rcases htaken c hc with hc | hc
      · exact hout c hc hmem
      · have hlt := hmem.2
        omega
    have hle := Event.start_le_stop hs
    rw [gapsFrom_stretches hs, List.forall_mem_cons]
    refine ⟨fun i hi hi' => hspace.1 i ⟨Nat.le_trans hn hi.1, hi.2⟩ (hout i hi.1 hi'), ?_⟩
    intro gap hgap i hi hi'
    have hstart := h.le_gap hs gap hgap
    have hge := hi.1
    exact hspace.2 gap hgap i hi (hout i (by omega) hi')

/-- A comment that starts in front of the next event lies in the gap in front of it, and what comes
behind the comment fits from its end on. -/
theorem afterComment (h : Fits table n (c :: pending) (event :: events))
    (hs : event.stretch? = some s) (hc : c.stretch.start < s.start) :
    n ≤ c.stretch.start ∧ c.stretch.stop ≤ s.start ∧
      Fits table c.stretch.stop pending (event :: events) := by
  have hle := Event.start_le_stop hs
  have hascending := List.pairwise_cons.1 h.ascending
  have hin : n ≤ c.stretch.start ∧ c.stretch.stop ≤ s.start := by
    rcases h.inside_first hs List.mem_cons_self with hin | ⟨gap, hgap, hstart, -⟩
    · exact hin
    · have hge := h.le_gap hs gap hgap
      omega
  have hne := h.nonempty c List.mem_cons_self
  refine ⟨hin.1, hin.2, h.moveTo hs (by omega) hin.2 (List.sublist_cons_self ..) hascending.1 ?_⟩
  intro d hd
  rcases List.mem_cons.1 hd with rfl | hd
  · exact .inr (Nat.le_refl _)
  · exact .inl hd

/-- With no comments left in the gap in front of it, an event fits from its start on. -/
theorem afterGap (h : Fits table n pending (event :: events))
    (hs : event.stretch? = some s) (hc : ∀ c ∈ pending, s.start ≤ c.stretch.start) :
    Fits table s.start pending (event :: events) :=
  h.moveTo hs (h.le_event hs) (Nat.le_refl _) (List.Sublist.refl _) hc fun _ hc => .inl hc

/-- What is behind an event fits from its end on. -/
theorem afterEvent (h : Fits table s.start pending (event :: events))
    (hs : event.stretch? = some s) : Fits table s.stop pending events := by
  have hforward := h.forward
  have hspace := h.space
  have hboundary := h.boundary
  rw [gapsFrom_stretches hs, List.forall_mem_cons] at hforward hspace
  rw [Event.stretches_cons hs, List.forall_mem_cons] at hboundary
  refine
    { h with
      token := fun owner place text hmem => h.token owner place text (List.mem_cons_of_mem _ hmem)
      boundary := hboundary.2
      forward := hforward.2
      inside := fun c hc => ?_
      space := hspace.2 }
  rcases h.inside_first hs hc with ⟨hstart, hstop⟩ | hin
  · -- the gap in front of the event is empty, and the comment is not
    have hne := h.nonempty c hc
    omega
  · exact hin

/-- A checkpoint takes no place. -/
theorem afterCheckpoint {owner : NodeKind} {label : String}
    (h : Fits table n pending (.checkpoint owner label :: events)) :
    Fits table n pending events :=
  { h with
    token := fun owner place text hmem => h.token owner place text (List.mem_cons_of_mem _ hmem) }

/-- No pending comment starts in front of the first. -/
theorem first_le (h : Fits table n (c :: pending) events) :
    ∀ d ∈ c :: pending, c.stretch.start ≤ d.stretch.start := by
  have hne := h.nonempty c List.mem_cons_self
  rw [List.forall_mem_cons]
  refine ⟨Nat.le_refl _, fun d hd => ?_⟩
  exact Nat.le_trans (Nat.le_of_lt hne) ((List.pairwise_cons.1 h.ascending).1 d hd)

/-- No pending comment starts in front of the place that the events fit from. -/
theorem le_pending (h : Fits table n pending (event :: events)) (hs : event.stretch? = some s)
    (hc : c ∈ pending) : n ≤ c.stretch.start := by
  rcases h.inside_first hs hc with ⟨hstart, -⟩ | ⟨gap, hgap, hstart, -⟩
  · exact hstart
  · have hevent := h.le_event hs
    have hle := Event.start_le_stop hs
    have hgap := h.le_gap hs gap hgap
    omega

/-! ## The walk -/

variable {start stop place : Offset}

/-- Whitespace in front of the next comment and the next event can be made into fragments. -/
theorem exists_whitespace (h : Fits table start.toNat pending (event :: events))
    (hs : event.stretch? = some s) (hstart : String.Pos.Raw.isValid table.text ⟨start.toNat⟩)
    (hstop : String.Pos.Raw.isValid table.text ⟨stop.toNat⟩) (hle : start ≤ stop)
    (hevent : stop.toNat ≤ s.start) (hpending : ∀ c ∈ pending, stop.toNat ≤ c.stretch.start)
    (owned : Bool) : ∃ gs, Gap.whitespace table start stop owned = .ok gs := by
  have hspace := h.space
  rw [gapsFrom_stretches hs, List.forall_mem_cons] at hspace
  refine exists_whitespace_of_space owned hstart hstop hle fun i hi hi' => ?_
  refine hspace.1 i ⟨hi, Nat.lt_of_lt_of_le hi' hevent⟩ fun c hc hmem => ?_
  have hle := hpending c hc
  have hle' := hmem.1
  omega

/-- A gap that holds no comments can be made into fragments, and the event behind it fits from its
start on. -/
theorem exists_scanFrom_of_le (h : Fits table start.toNat pending (event :: events))
    (hs : event.stretch? = some s) (hstop : s.start = stop.toNat)
    (hstart : String.Pos.Raw.isValid table.text ⟨start.toNat⟩)
    (hpending : ∀ c ∈ pending, stop.toNat ≤ c.stretch.start) (owned : Bool) :
    ∃ fs, Gap.scanFrom table stop pending start owned = .ok (fs, pending) ∧
      Fits table stop.toNat pending (event :: events) := by
  have hle := h.le_event hs
  have hboundary := h.isValid_event hs
  rw [hstop] at hle hboundary
  obtain ⟨gs, hgs⟩ := h.exists_whitespace hs hstart hboundary hle (Nat.le_of_eq hstop.symm)
    hpending owned
  refine ⟨gs, ?_, hstop ▸ h.afterGap hs (hstop ▸ hpending)⟩
  cases pending with
  | nil =>
    rw [Gap.scanFrom]
    exact bind_eq_ok_iff.2 ⟨gs, hgs, rfl⟩
  | cons c pending =>
    have hbehind : ¬c.span.start < stop := Nat.not_lt.2 (hpending c List.mem_cons_self)
    rw [Gap.scanFrom, if_neg hbehind]
    exact bind_eq_ok_iff.2 ⟨gs, hgs, rfl⟩

/-- **The gap in front of an event that fits can be made into fragments**, and with the comments
that are left the event fits from its start on. -/
theorem exists_scanFrom (h : Fits table start.toNat pending (event :: events))
    (hs : event.stretch? = some s) (hstop : s.start = stop.toNat)
    (hstart : String.Pos.Raw.isValid table.text ⟨start.toNat⟩) (owned : Bool) :
    ∃ fs left, Gap.scanFrom table stop pending start owned = .ok (fs, left) ∧
      Fits table stop.toNat left (event :: events) := by
  induction pending generalizing start owned with
  | nil =>
    obtain ⟨fs, hfs⟩ := h.exists_scanFrom_of_le hs hstop hstart nofun owned
    exact ⟨fs, [], hfs⟩
  | cons c pending ih =>
    by_cases hlt : c.span.start < stop
    · obtain ⟨hfirst, hlast, hnext⟩ := h.afterComment hs (hstop ▸ hlt)
      obtain ⟨hc, hclen⟩ := h.comment c List.mem_cons_self
      obtain ⟨hcstart, hcstop⟩ := hc.boundaries
      rw [← hclen] at hcstop
      have hle : c.stretch.start ≤ s.start := hstop ▸ Nat.le_of_lt hlt
      have hblank : ∃ gs, Gap.whitespace table start c.span.start owned = .ok gs :=
        h.exists_whitespace hs hstart hcstart hfirst hle h.first_le owned
      have hcomment : ∃ f, Gap.comment table stop c = .ok f := by
        obtain ⟨front, rest, htext, hfront⟩ := hc
        rw [hstop] at hlast
        refine exists_comment htext hfront.symm ?_ hlast
        rw [String.utf8Len_append, hfront, ← utf8ByteSize_eq]
        exact hclen
      obtain ⟨gs, hgs⟩ := hblank
      obtain ⟨f, hf⟩ := hcomment
      obtain ⟨fs, left, hfs, hleft⟩ := ih hnext hcstop c.isLine
      refine ⟨gs ++ f :: fs, left, ?_, hleft⟩
      rw [Gap.scanFrom, if_pos hlt]
      exact bind_eq_ok_iff.2 ⟨gs, hgs, bind_eq_ok_iff.2 ⟨f, hf, bind_eq_ok_iff.2 ⟨_, hfs, rfl⟩⟩⟩
    · have hbehind : ∀ d ∈ c :: pending, stop.toNat ≤ d.stretch.start := fun d hd =>
        Nat.le_trans (Nat.not_lt.1 hlt) (h.first_le d hd)
      obtain ⟨fs, hfs⟩ := h.exists_scanFrom_of_le hs hstop hstart hbehind owned
      exact ⟨fs, c :: pending, hfs⟩

/-- **A cursor can be moved to an event that fits.** -/
theorem exists_advanceTo {c : Cursor} (h : Fits table c.place.toNat c.pending (event :: events))
    (hs : event.stretch? = some s) (hplace : s.start = place.toNat) (hc : c.Resolves table) :
    ∃ fs d, c.advanceTo table place = .ok (fs, d) ∧ d.place = place ∧
      Fits table place.toNat d.pending (event :: events) := by
  have hle : ¬place < c.place := Nat.not_lt.2 (hplace ▸ h.le_event hs)
  rw [Cursor.advanceTo, if_neg hle]
  split
  · obtain ⟨fs, left, hfs, hleft⟩ := h.exists_scanFrom hs hplace hc.isValid false
    refine ⟨fs, ⟨place, left⟩, bind_eq_ok_iff.2 ⟨(fs, left), ?_, rfl⟩, rfl, hleft⟩
    rw [Gap.scan]
    split
    · rename_i d hhead
      rw [if_neg]
      · exact hfs
      · exact Nat.not_lt.2 (h.le_pending hs (List.mem_of_mem_head? hhead))
    · exact hfs
  · rename_i hnlt
    have heq : c.place = place := by
      ext
      rw [Offset.lt_def] at hle hnlt
      omega
    exact ⟨[], c, rfl, heq, heq ▸ h⟩

/-- A mark can be set at an event that fits. -/
theorem exists_markAt {c : Cursor} (h : Fits table c.place.toNat c.pending (event :: events))
    (hs : event.stretch? = some ⟨place.toNat, place.toNat⟩) (hc : c.Resolves table) (mark : Mark) :
    ∃ fs d, c.markAt table place mark = .ok (fs, d) ∧
      Fits table d.place.toNat d.pending events := by
  obtain ⟨fs, d, hadvance, rfl, hd⟩ := h.exists_advanceTo hs rfl hc
  obtain ⟨p, hp⟩ := Option.isSome_iff_exists.1
    (LineTable.position?_isSome_iff.2 (isValid_iff_cut.1 (h.isValid_event hs)))
  exact ⟨_, d, Cursor.markAt_eq_ok_iff.2 ⟨fs, p, hadvance, hp, rfl⟩, hd.afterEvent hs⟩

/-- A token that fits can be taken. -/
theorem exists_takeToken {c : Cursor} {owner : NodeKind} {text : String}
    (h : Fits table c.place.toNat c.pending (.token owner place text :: events))
    (hmax : place.toNat + text.utf8ByteSize ≤ maxOffset) (hc : c.Resolves table) :
    ∃ fs d, c.takeToken table owner place text = .ok (fs, d) ∧
      Fits table d.place.toNat d.pending events := by
  obtain ⟨fs, d, hadvance, rfl, hd⟩ := h.exists_advanceTo rfl rfl hc
  obtain ⟨front, rest, htext, hfront⟩ := h.token owner d.place text List.mem_cons_self
  have hslice := LineTable.slice?_ofLength htext hfront hmax
  obtain ⟨p, hp⟩ := Option.isSome_iff_exists.1
    (LineTable.position?_isSome_iff.2 ⟨front, _, by rw [htext, List.append_assoc], hfront⟩)
  refine ⟨_, _, Cursor.takeToken_eq_ok_iff.2 ⟨fs, d, p, hadvance, hslice, hp, rfl, rfl⟩, ?_⟩
  have hs : (Event.token owner d.place text).stretch? =
      some ⟨d.place.toNat, d.place.toNat + text.utf8ByteSize⟩ := rfl
  rw [toNat_advance_of_le d.place text.utf8ByteSize hmax]
  exact hd.afterEvent hs

/-- **A step through an event that fits succeeds**, and the events behind it fit from where it ends,
if the event starts no construct that is too deep and is no placeholder. -/
theorem exists_step {c : Cursor} (h : Fits table c.place.toNat c.pending (event :: events))
    (hc : c.Resolves table)
    (hdepth : ∀ kind place depth, event = .enter kind place depth → depth ≤ options.maxDepth)
    (hrefuse : ∀ kind place, event ≠ .refuse kind place)
    (hmax : ∀ s ∈ event.stretch?, s.stop ≤ maxOffset) :
    ∃ fs d, c.step options table event = .ok (fs, d) ∧
      Fits table d.place.toNat d.pending events := by
  cases event with
  | enter kind place depth =>
    rw [Cursor.step, if_neg (Nat.not_lt.2 (hdepth kind place depth rfl))]
    exact h.exists_markAt rfl hc (.nodeStart kind)
  | leave kind place => exact h.exists_markAt rfl hc (.nodeEnd kind)
  | token owner place text => exact h.exists_takeToken (hmax _ rfl) hc
  | checkpoint owner label =>
    rw [Cursor.step]
    split
    · obtain ⟨p, hp⟩ := Option.isSome_iff_exists.1 hc
      exact ⟨_, c, bind_eq_ok_iff.2 ⟨p, LineTable.resolve_eq_ok_iff.2 hp, rfl⟩, h.afterCheckpoint⟩
    · exact ⟨[], c, rfl, h.afterCheckpoint⟩
  | refuse kind place => exact absurd rfl (hrefuse kind place)

/-- Where no events are left, no comments are. -/
theorem pending_eq_nil (h : Fits table n pending []) : pending = [] := by
  refine List.eq_nil_iff_forall_not_mem.2 fun c hc => ?_
  obtain ⟨gap, hgap, -⟩ := h.inside c hc
  cases hgap

/-- **A run through events that fit succeeds**, and no comment is left over. -/
theorem exists_runs {c : Cursor} (h : Fits table c.place.toNat c.pending events)
    (hc : c.Resolves table)
    (hdepth : ∀ kind place depth, .enter kind place depth ∈ events → depth ≤ options.maxDepth)
    (hrefuse : ∀ kind place, .refuse kind place ∉ events)
    (hmax : ∀ s ∈ Event.stretches events, s.stop ≤ maxOffset) :
    ∃ fs d, c.Runs options table events fs d ∧ d.pending = [] := by
  induction events generalizing c with
  | nil => exact ⟨[], c, ⟨rfl, rfl⟩, h.pending_eq_nil⟩
  | cons event events ih =>
    have ⟨gs, d, hstep, hd⟩ : ∃ gs d, c.step options table event = .ok (gs, d) ∧
        Fits table d.place.toNat d.pending events :=
      h.exists_step hc
        (fun kind place depth he => hdepth kind place depth (he ▸ List.mem_cons_self))
        (fun kind place he => hrefuse kind place (he ▸ List.mem_cons_self))
        fun s hs => hmax s (List.mem_filterMap.2 ⟨event, List.mem_cons_self, hs⟩)
    obtain ⟨fs, d', hruns, hpending⟩ := ih hd (hc.step hstep)
      (fun kind place depth he => hdepth kind place depth (List.mem_cons_of_mem event he))
      (fun kind place he => hrefuse kind place (List.mem_cons_of_mem event he))
      fun s hs => hmax s ((List.sublist_cons_self event events).filterMap _ |>.mem hs)
    exact ⟨gs ++ fs, d', ⟨gs, d, fs, hstep, hruns, rfl⟩, hpending⟩

end Fits

/-! ## Files -/

/-- Stretches in order end no later than the last starts. -/
theorem stop_le_of_forward {n : Nat} {ss : List Stretch} {last : Stretch}
    (hforward : ∀ gap ∈ gapsFrom n (ss ++ [last]), gap.start ≤ gap.stop)
    (hss : ∀ s ∈ ss, s.start ≤ s.stop) : n ≤ last.start ∧ ∀ s ∈ ss, s.stop ≤ last.start := by
  induction ss generalizing n with
  | nil => exact ⟨hforward _ List.mem_cons_self, nofun⟩
  | cons s ss ih =>
    rw [List.cons_append, gapsFrom, List.forall_mem_cons] at hforward
    rw [List.forall_mem_cons] at hss ⊢
    obtain ⟨hs, hrest⟩ := ih hforward.2 hss.2
    exact ⟨Nat.le_trans hforward.1 (Nat.le_trans hss.1 hs), hs, hrest⟩

/-- The events of a file end no later than an offset can say. -/
private theorem stop_le_of_fits {file : File} (h : Fits table 0 file.comments file.events) :
    ∀ s ∈ Event.stretches file.events, s.stop ≤ maxOffset := by
  -- the last event leaves the file
  have ⟨init, hevents⟩ : ∃ init, file.events = init ++ [.leave .file file.span.stop] := ⟨_, rfl⟩
  have hstretches : Event.stretches file.events =
      Event.stretches init ++ [⟨file.span.stop.toNat, file.span.stop.toNat⟩] := by
    rw [hevents, Event.stretches, List.filterMap_append]
    rfl
  have hforward := h.forward
  rw [hstretches] at hforward ⊢
  have hinit := stop_le_of_forward hforward fun s hs => by
    obtain ⟨event, -, he⟩ := List.mem_filterMap.1 hs
    exact Event.start_le_stop he
  rw [List.forall_mem_append, List.forall_mem_singleton]
  exact ⟨fun s hs => Nat.le_trans (hinit.2 s hs) file.span.stop.le_max, file.span.stop.le_max⟩

/-- **A file that fits its text has a trace**, unless it holds a placeholder or nests deeper than
the options allow: of the errors that the walk can end in, none is spurious. -/
theorem File.exists_trace_of_fits {file : File}
    (hplaceholder : ∀ node ∈ file.nodes, node.kind.isPlaceholder = false)
    (hheight : file.layout.height ≤ options.maxDepth)
    (hfits : Fits table 0 file.comments file.events) :
    ∃ fragments, file.trace table options = .ok fragments := by
  have hdepth : ∀ kind place depth, .enter kind place depth ∈ file.events →
      depth ≤ options.maxDepth := fun kind place depth h => by
    have hle := Layout.depth_le_of_enter_mem h
    omega
  have hrefuse : ∀ kind place, .refuse kind place ∉ file.events := fun kind place h => by
    obtain ⟨m, hm, hrows⟩ := Layout.exists_of_refuse_mem_events h
    rw [File.preorder_layout] at hm
    obtain ⟨node, hnode, rfl⟩ := List.mem_map.1 hm
    rw [node.shape_layout.2, hplaceholder node hnode] at hrows
    cases hrows
  have hfits' : Fits table (Cursor.atStart file.comments).place.toNat
      (Cursor.atStart file.comments).pending file.events := hfits
  obtain ⟨fragments, c, hruns, hpending⟩ := hfits'.exists_runs
    (Cursor.resolves_atStart table file.comments) hdepth hrefuse (stop_le_of_fits hfits)
  exact ⟨fragments, File.trace_eq_ok_iff.2 ⟨c, hruns, hpending⟩⟩

/-- `clauseFile` fits its text. -/
theorem fits_clauseFile : Fits (.ofString clauseText) 0 clauseFile.comments clauseFile.events := by
  have hwords : Event.words clauseFile.events = [(.zero, "package"), (.ofNat 9, "p")] := rfl
  have hcomments : clauseFile.comments = [⟨.line, "// é", ⟨.ofNat 11, .ofNat 16⟩⟩] := rfl
  have hcomment : StandsAt clauseText 11 "// é" :=
    ⟨"package\t\np ".toList, ['\n'], by decide +kernel, by decide +kernel⟩
  refine
    { token := fun owner place text h => ?_
      boundary := by decide +kernel
      forward := by decide +kernel
      nonempty := by decide +kernel
      ascending := List.pairwise_singleton _ _
      comment := ?_
      inside := ?_
      space := ?_ }
  · have hword : (place, text) ∈ Event.words clauseFile.events :=
      List.mem_filterMap.2 ⟨_, h, rfl⟩
    rw [hwords, List.mem_pair, Prod.mk.injEq, Prod.mk.injEq] at hword
    rcases hword with ⟨rfl, rfl⟩ | ⟨rfl, rfl⟩
    · exact ⟨[], "\t\np // é\n".toList, by decide +kernel, rfl⟩
    · exact ⟨"package\t\n".toList, " // é\n".toList, by decide +kernel, by decide +kernel⟩
  · rw [hcomments, List.forall_mem_singleton]
    exact ⟨hcomment, by decide +kernel⟩
  · rw [hcomments, List.forall_mem_singleton]
    decide +kernel
  · have hbytes : ∀ i < 17, 7 ≤ i ∧ i < 9 ∨ i = 10 ∨ i = 16 →
        ∀ h : i < clauseText.toByteArray.size, clauseText.toByteArray[i] ∈ spaceBytes := by
      decide +kernel
    have hplaces : ∀ gap ∈ gapsFrom 0 (Event.stretches clauseFile.events), gap.stop ≤ gap.start ∨
        7 ≤ gap.start ∧ gap.stop ≤ 9 ∨ 10 ≤ gap.start ∧ gap.stop ≤ 17 := by decide +kernel
    intro gap hgap i hi hout
    have hcomment : ¬(11 ≤ i ∧ i < 16) := hout _ (List.mem_singleton_self _)
    have hplace := hplaces gap hgap
    have hstart := hi.1
    have hstop := hi.2
    exact hbytes i (by omega) (by omega)

/-- `clauseFile` has a trace, for it fits its text. -/
theorem exists_trace_of_fits_clauseFile :
    (∀ node ∈ clauseFile.nodes, node.kind.isPlaceholder = false) ∧
      clauseFile.layout.height ≤ ({} : Options).maxDepth ∧
      Fits (.ofString clauseText) 0 clauseFile.comments clauseFile.events ∧
      ∃ fragments, clauseFile.trace (.ofString clauseText) {} = .ok fragments := by
  have hplaceholder : ∀ node ∈ clauseFile.nodes, node.kind.isPlaceholder = false := by
    simp [File.nodes, Node.preorder_eq, Node.parts, clauseFile, Expr.parts, Node.kind, Expr.kind,
      NodeKind.isPlaceholder]
  have hheight : clauseFile.layout.height ≤ ({} : Options).maxDepth := by decide +kernel
  exact ⟨hplaceholder, hheight, fits_clauseFile,
    File.exists_trace_of_fits hplaceholder hheight fits_clauseFile⟩

end GoTrace
