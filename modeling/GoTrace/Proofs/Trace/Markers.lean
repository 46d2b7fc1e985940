import GoTrace.Proofs.Trace.Coverage

/-!
# Line breaks and blank lines

Between two fragments that are no line markers there is a gap of whitespace, and its newlines alone
say which markers stand there: a line break at the first newline, unless this newline ends a line
comment, and a blank line behind it if there is a second one. `lineMarks` is this rule, and
`trace_lineMarks` says that a trace follows it everywhere.

A trace does not see its gaps whole: comments and marks without text cut them into stretches. The
account of a trace has one stretch in front of each fragment, so the rule is proved for a stretch
(`Blank.marks_eq`) and found again at any place of the trace (`Accounts.behind`,
`Accounts.blank`).
-/

namespace GoTrace

open String (utf8Len)

/-! ## The markers of a gap -/

/-- The markers of a gap that starts at byte `start`, each with its place. A newline that is owned
by a line comment in front makes no line break. -/
def lineMarks (start : Nat) (gap : List Char) (owned : Bool) : List (Mark × Nat) :=
  let first := start + utf8Len (gap.takeWhile (· != '\n'))
  (if '\n' ∈ gap ∧ owned = false then [(.lineBreak, first)] else []) ++
    if 2 ≤ gap.count '\n' then [(.blankLine, first + 1)] else []

/-- Whether a fragment behind the fragments `before` shows a line comment: the number of comments
among `before` is the number of the comment that it shows. -/
def showsLineComment (comments : List Comment) (before : List Fragment) (f : Fragment) : Bool :=
  f.mark.kind == .comment &&
    (comments[before.countP (·.mark.kind == .comment)]?).any Comment.isLine

variable {table : LineTable} {stop : Offset} {start : Nat} {front v w : List Char}
  {pending : List Comment} {owned : Bool} {gs fs : List Fragment}

/-- A gap without newlines has no markers. -/
theorem lineMarks_of_not_mem (h : '\n' ∉ w) : lineMarks start w owned = [] := by
  simp [lineMarks, h, List.count_eq_zero_of_not_mem h]

/-- The markers of a gap with a newline stand at this newline and behind it. -/
theorem lineMarks_of_cut {rest : List Char} (hv : '\n' ∉ v) :
    lineMarks start (v ++ '\n' :: rest) owned =
      (if owned then [] else [(.lineBreak, start + utf8Len v)]) ++
        if '\n' ∈ rest then [(.blankLine, start + utf8Len v + 1)] else [] := by
  have hcount : 2 ≤ (v ++ '\n' :: rest).count '\n' ↔ '\n' ∈ rest := by
    rw [List.count_append, List.count_eq_zero_of_not_mem hv, List.count_cons_self,
      ← List.one_le_count_iff]
    omega
  simp only [lineMarks, (span_newline hv).1, hcount]
  cases owned <;> simp

/-- The markers of a gap lie in the gap. -/
theorem bounds_of_mem_lineMarks {m : Mark × Nat} (h : m ∈ lineMarks start w owned) :
    start ≤ m.2 ∧ m.2 ≤ start + utf8Len w := by
  by_cases hmem : '\n' ∈ w
  · obtain ⟨v, rest, rfl, hv⟩ := List.eq_append_cons_of_mem hmem
    rw [lineMarks_of_cut hv, List.mem_append] at h
    rw [utf8Len_newline]
    rcases h with hbreak | hblank
    · split at hbreak
      · cases hbreak
      · obtain rfl := List.mem_singleton.1 hbreak
        dsimp only
        omega
    · split at hblank
      · obtain rfl := List.mem_singleton.1 hblank
        dsimp only
        omega
      · cases hblank
  · rw [lineMarks_of_not_mem hmem] at h
    cases h

/-- The markers of a gap stand in order. -/
theorem pairwise_lineMarks : (lineMarks start w owned).Pairwise (·.2 ≤ ·.2) := by
  rw [lineMarks, List.pairwise_append]
  refine ⟨?_, ?_, ?_⟩
  · split <;> simp
  · split <;> simp
  · intro a ha b hb
    split at ha <;> split at hb <;> simp_all

/-! ## One stretch of whitespace -/

/-- A fragment starts at the offset that its position was resolved from. -/
private theorem start_of_resolve {m : Mark} {place : Offset} {p : Position}
    (h : table.resolve place = .ok p) : (Fragment.mk m p).start = place.toNat :=
  congrArg Offset.toNat (LineTable.offset_of_position? (LineTable.resolve_eq_ok_iff.1 h))

/-- **The markers of a stretch of whitespace are those that its newlines ask for.** -/
theorem Blank.marks_eq (h : Blank table front w owned gs)
    (hmax : utf8Len (front ++ w) ≤ maxOffset) :
    gs.map (fun g => (g.mark, g.start)) = lineMarks (utf8Len front) w owned := by
  obtain ⟨hspace, place, hplace, hmarkers⟩ := h
  by_cases hmem : '\n' ∈ w
  · obtain ⟨v, rest, rfl, hv⟩ := List.eq_append_cons_of_mem hmem
    have hv' : utf8Len v = v.length :=
      utf8Len_of_isSpace fun c hc => hspace c (List.mem_append_left _ hc)
    rw [String.utf8Len_append, utf8Len_newline, hv', ← hplace] at hmax
    rw [Gap.markers, (span_newline hv).1, (span_newline hv).2] at hmarkers
    have hfirst : (place.advance v.length).toNat = utf8Len front + v.length := by
      rw [Offset.toNat_advance, hplace]
      omega
    have hsecond : ((place.advance v.length).advance 1).toNat =
        (place.advance v.length).toNat + 1 := by
      rw [Offset.toNat_advance, hfirst]
      omega
    rw [lineMarks_of_cut hv, hv', ← hfirst]
    -- the two markers come and go on their own
    by_cases hrest : '\n' ∈ rest <;> cases owned <;>
      simp only [hrest, List.contains_iff_mem, bind_eq_ok_iff, pure_eq_ok_iff, exists_eq_left',
        if_true, if_false, Bool.false_eq_true] at hmarkers ⊢
    · obtain ⟨p, hp, q, hq, rfl⟩ := hmarkers
      rw [List.map_append, List.map_singleton, List.map_singleton, start_of_resolve hp,
        start_of_resolve hq, hsecond]
    · obtain ⟨q, hq, rfl⟩ := hmarkers
      rw [List.map_append, List.map_nil, List.map_singleton, start_of_resolve hq, hsecond]
    · obtain ⟨p, hp, rfl⟩ := hmarkers
      rw [List.map_append, List.map_nil, List.map_singleton, start_of_resolve hp]
    · rw [← hmarkers]
      rfl
  · rw [Gap.markers, dropWhile_of_not_mem_newline hmem] at hmarkers
    obtain rfl := Except.ok.inj hmarkers
    exact (lineMarks_of_not_mem hmem).symm

/-! ## Places in a trace -/

/-- An element that is not in front of `f` is `f`, or it stands behind `f`. -/
private theorem split_at {gs fs before rest : List Fragment} {f p : Fragment}
    (h : gs ++ f :: fs = before ++ p :: rest) (hp : p ∉ gs) :
    (before = gs ∧ p = f ∧ rest = fs) ∨
      ∃ before', before = gs ++ f :: before' ∧ fs = before' ++ p :: rest := by
  rcases List.append_eq_append_iff.1 h with ⟨as, rfl, hrest⟩ | ⟨bs, rfl, hrest⟩
  · cases as with
    | nil =>
      obtain ⟨rfl, rfl⟩ := List.cons.inj hrest
      exact .inl ⟨List.append_nil _, rfl, rfl⟩
    | cons a as =>
      obtain ⟨rfl, rfl⟩ := List.cons.inj hrest
      exact .inr ⟨as, rfl, rfl⟩
  · cases bs with
    | nil =>
      obtain ⟨rfl, rfl⟩ := List.cons.inj hrest
      exact .inl ⟨(List.append_nil _).symm, rfl, rfl⟩
    | cons b bs =>
      obtain ⟨rfl, rfl⟩ := List.cons.inj hrest
      exact absurd (by simp) hp

private theorem not_mem_of_markers {f : Fragment} (h : ∀ g ∈ gs, g.mark.kind.isLineMarker)
    (hf : f.mark.kind.isLineMarker = false) : f ∉ gs := by
  intro hmem
  rw [h f hmem] at hf
  cases hf

/-- Behind the same fragments there is the same first one that is no marker. -/
private theorem first_unmarked {gs fs ms rest : List Fragment} {f q : Fragment}
    (h : gs ++ f :: fs = ms ++ q :: rest) (hgs : ∀ g ∈ gs, g.mark.kind.isLineMarker)
    (hf : f.mark.kind.isLineMarker = false) (hms : ∀ m ∈ ms, m.mark.kind.isLineMarker)
    (hq : q.mark.kind.isLineMarker = false) : ms = gs ∧ q = f := by
  rcases split_at h (not_mem_of_markers hgs hq) with ⟨rfl, rfl, -⟩ | ⟨before, rfl, -⟩
  · exact ⟨rfl, rfl⟩
  · rw [hms f (by simp)] at hf
    cases hf

/-- The fragments of a blank are markers. -/
theorem Blank.isLineMarker (h : Blank table front w owned gs) :
    ∀ g ∈ gs, g.mark.kind.isLineMarker := by
  obtain ⟨-, _, -, hmarkers⟩ := h
  exact isLineMarker_of_markers hmarkers

/-- What belongs to a construct shows no line comment. -/
theorem showsLineComment_of_construct {before : List Fragment} {m : Mark} {place : Position}
    (h : m.construct?.isSome) : showsLineComment pending before ⟨m, place⟩ = false := by
  rw [showsLineComment, beq_eq_false_iff_ne.2 (Mark.ne_comment_of_construct h), Bool.false_and]

/-- Markers are no comments. -/
theorem countP_comment_of_markers (h : ∀ g ∈ gs, g.mark.kind.isLineMarker) :
    gs.countP (·.mark.kind == .comment) = 0 := by
  rw [List.countP_eq_zero]
  intro g hg hcomment
  exact Mark.ne_comment_of_isLineMarker (h g hg) (eq_of_beq hcomment)

/-- Comments are numbered from the first fragment on, and neither markers nor what belongs to a
construct counts. -/
theorem showsLineComment_behind_mark {before : List Fragment} {m : Mark} {place : Position}
    {p : Fragment} (h : ∀ g ∈ gs, g.mark.kind.isLineMarker) (hm : m.construct?.isSome) :
    showsLineComment pending (gs ++ ⟨m, place⟩ :: before) p =
      showsLineComment pending before p := by
  rw [showsLineComment, showsLineComment, List.countP_append, countP_comment_of_markers h,
    List.countP_cons_of_neg (by simpa using Mark.ne_comment_of_construct hm), Nat.zero_add]

/-- The comment that comes first is not counted any more behind its fragment. -/
theorem showsLineComment_behind_comment {before : List Fragment} {c : Comment} {text : String}
    {place : Position} {p : Fragment} (h : ∀ g ∈ gs, g.mark.kind.isLineMarker) :
    showsLineComment (c :: pending) (gs ++ ⟨.comment text, place⟩ :: before) p =
      showsLineComment pending before p := by
  rw [showsLineComment, showsLineComment, List.countP_append, countP_comment_of_markers h,
    List.countP_cons_of_pos rfl, Nat.zero_add, List.getElem?_cons_succ]

/-- The fragment of the comment that comes first shows this comment. -/
theorem showsLineComment_comment {c : Comment} {text : String} {place : Position}
    (h : ∀ g ∈ gs, g.mark.kind.isLineMarker) :
    showsLineComment (c :: pending) gs ⟨.comment text, place⟩ = c.isLine := by
  rw [showsLineComment, countP_comment_of_markers h, List.getElem?_cons_zero]
  rfl

/-- **Behind a fragment the account goes on**: the text up to its end is accounted for, and an owned
newline follows if it shows a line comment. -/
theorem Accounts.behind {before rest : List Fragment} {p : Fragment}
    (h : Accounts table stop front pending owned (before ++ p :: rest))
    (hp : p.mark.kind.isLineMarker = false) :
    ∃ front' pending', utf8Len front' = p.stop ∧
      Accounts table stop front' pending' (showsLineComment pending before p) rest := by
  generalize hall : before ++ p :: rest = all at h
  induction h generalizing before with
  | done htext hstop => simp at hall
  | @mark front w rest' pending owned m place gs fs htext hblank hmark hplace hstart next ih =>
    -- the fragment is this mark, or it stands behind it
    have hnot := not_mem_of_markers hblank.isLineMarker hp
    rcases split_at hall.symm hnot with ⟨rfl, rfl, rfl⟩ | ⟨before', rfl, rfl⟩
    · refine ⟨_, pending, (Fragment.stop_eq (f := ⟨m, place⟩) hstart).symm, ?_⟩
      rw [showsLineComment_of_construct hmark]
      exact next
    · obtain ⟨front', pending', hstop, hnext⟩ := ih rfl
      refine ⟨front', pending', hstop, ?_⟩
      rw [showsLineComment_behind_mark hblank.isLineMarker hmark]
      exact hnext
  | @comment front w rest' c pending owned place gs fs htext hblank hplace hat hstart hend next ih =>
    -- the fragment is this comment, or it stands behind it and its number is one less there
    have hnot := not_mem_of_markers hblank.isLineMarker hp
    rcases split_at hall.symm hnot with ⟨rfl, rfl, rfl⟩ | ⟨before', rfl, rfl⟩
    · refine ⟨_, pending, (Fragment.stop_eq (f := ⟨.comment c.text, place⟩) hat).symm, ?_⟩
      rw [showsLineComment_comment hblank.isLineMarker]
      exact next
    · obtain ⟨front', pending', hstop, hnext⟩ := ih rfl
      refine ⟨front', pending', hstop, ?_⟩
      rw [showsLineComment_behind_comment hblank.isLineMarker]
      exact hnext

/-- The markers in front of a fragment are those of the stretch of whitespace there. -/
theorem Accounts.blank {ms rest : List Fragment} {q : Fragment}
    (h : Accounts table stop front pending owned (ms ++ q :: rest))
    (hms : ∀ m ∈ ms, m.mark.kind.isLineMarker) (hq : q.mark.kind.isLineMarker = false) :
    ∃ w back, table.text.toList = front ++ w ++ back ∧ Blank table front w owned ms ∧
      q.start = utf8Len (front ++ w) := by
  generalize hall : ms ++ q :: rest = all at h
  cases h with
  | done htext hstop => simp at hall
  | mark htext hblank hmark hplace hstart next =>
    obtain ⟨rfl, rfl⟩ := first_unmarked hall.symm hblank.isLineMarker
      (Mark.isLineMarker_of_construct hmark) hms hq
    exact ⟨_, _, by rw [htext, List.append_assoc _ _ _], hblank, hstart⟩
  | comment htext hblank hplace hat hstart hstop next =>
    obtain ⟨rfl, rfl⟩ := first_unmarked hall.symm hblank.isLineMarker rfl hms hq
    exact ⟨_, _, by rw [htext, List.append_assoc _ _ _], hblank, hat⟩

/-- **The newlines between two fragments say which markers stand there.** Let `ms` be the markers
between two fragments `p` and `q` that are none, and the gap the text from the end of `p` to the
start of `q`. The first newline of the gap makes a line break, unless `p` is a line comment; a
second one makes a blank line, one byte behind the first; and there is nothing else in `ms`. -/
theorem trace_lineMarks {file : File} {options : Options} {before ms after : List Fragment}
    {p q : Fragment} (h : file.trace table options = .ok (before ++ p :: (ms ++ q :: after)))
    (hp : p.mark.kind.isLineMarker = false) (hms : ∀ m ∈ ms, m.mark.kind.isLineMarker)
    (hq : q.mark.kind.isLineMarker = false) :
    ∃ gap, table.slice? ⟨p.span.stop, q.position.offset⟩ = some gap ∧
      ms.map (fun m => (m.mark, m.start)) =
        lineMarks p.stop gap.toList (showsLineComment file.comments before p) := by
  obtain ⟨front, pending, hfront, hbehind⟩ := (File.accounts_of_trace h).behind hp
  obtain ⟨w, back, htext, hblank, hstart⟩ := hbehind.blank hms hq
  have hmax : utf8Len (front ++ w) ≤ maxOffset := hstart ▸ q.position.offset.le_max
  refine ⟨String.ofList w, LineTable.slice?_eq_some_iff.2 ⟨front, back, ?_, ?_, ?_⟩, ?_⟩
  · rw [String.toList_ofList, htext]
  · have hle : p.stop ≤ maxOffset := by
      rw [String.utf8Len_append] at hmax
      omega
    rw [hfront]
    exact (Nat.min_eq_left hle).symm
  · rw [String.toList_ofList, ← String.utf8Len_append, ← hstart]
    rfl
  · rw [hblank.marks_eq hmax, hfront, String.toList_ofList]

/-- The file of a package clause with a blank line in it and another behind its comment. -/
def spacedFile : File where
  package := .zero
  name := ⟨.ofNat 10, "p"⟩
  decls := []
  comments := [⟨.line, "// é", ⟨.ofNat 12, .ofNat 17⟩⟩]
  span := ⟨.zero, .ofNat 19⟩

/-- The text of `spacedFile`. -/
def spacedText : String := "package\n\n\tp // é\n\n"

/-- The fragments of `spacedFile` in front of its comment. -/
def spacedFront : List Fragment :=
  [⟨.nodeStart .file, ⟨1, 1, .zero⟩⟩, ⟨.token .file "package", ⟨1, 1, .zero⟩⟩,
   ⟨.checkpoint .file "AfterPackage", ⟨1, 8, .ofNat 7⟩⟩, ⟨.lineBreak, ⟨1, 8, .ofNat 7⟩⟩,
   ⟨.blankLine, ⟨2, 1, .ofNat 8⟩⟩, ⟨.nodeStart .ident, ⟨3, 2, .ofNat 10⟩⟩,
   ⟨.token .ident "p", ⟨3, 2, .ofNat 10⟩⟩, ⟨.nodeEnd .ident, ⟨3, 3, .ofNat 11⟩⟩,
   ⟨.checkpoint .file "AfterName", ⟨3, 3, .ofNat 11⟩⟩]

/-- The comment of `spacedFile` owns the newline behind it, and a blank line follows. -/
theorem trace_spacedFile :
    spacedFile.trace (.ofString spacedText) {} =
      .ok (spacedFront ++ ⟨.comment "// é", ⟨3, 4, .ofNat 12⟩⟩ ::
        ([⟨.blankLine, ⟨4, 1, .ofNat 18⟩⟩] ++ ⟨.nodeEnd .file, ⟨5, 1, .ofNat 19⟩⟩ :: [])) := by
  decide +kernel

/-- The newlines behind the comment of `spacedFile` ask for the blank line. -/
theorem lineMarks_spacedText :
    ∃ gap, (LineTable.ofString spacedText).slice? ⟨.ofNat 17, .ofNat 19⟩ = some gap ∧
      [(.blankLine, 18)] = lineMarks 17 gap.toList
        (showsLineComment spacedFile.comments spacedFront
          ⟨.comment "// é", ⟨3, 4, .ofNat 12⟩⟩) :=
  trace_lineMarks trace_spacedFile rfl (by decide) rfl

end GoTrace
