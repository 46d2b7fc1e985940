import Mathlib.Algebra.GroupWithZero.Nat
import Mathlib.Data.List.Basic
import GoTrace.Grammar.Parameters

/-!
# What the entries of a parameter list stand for

A list in which some entries have names can be grouped if it falls into groups, each a run of names
in front of an entry with a name and a type. This is so if the last entry has a name and any entry
without one looks like a name (`ParamEntry.exists_groups`), and the fields are then those of the
groups (`ParamEntry.groupNamed_flatMap`). What is grouped declares one thing for each entry, with or
without names.
-/

namespace GoTrace

/-- A run of names, each with the comma behind it, in front of an entry with a name, whose type they
share. -/
structure ParamGroup where
  /-- The names in front. -/
  leading : List (Ident × Option Offset)
  /-- The name directly in front of the type. -/
  name : Ident
  /-- The type. -/
  type : Expr
  /-- The comma behind the type. -/
  comma? : Option Offset

/-- The entry of a name alone, with the comma behind it. -/
def ParamEntry.lone (name : Ident × Option Offset) : ParamEntry :=
  ⟨none, .ident name.1, name.2⟩

namespace ParamGroup

/-- The entries of a group. -/
def entries (group : ParamGroup) : List ParamEntry :=
  group.leading.map .lone ++ [⟨some group.name, group.type, group.comma?⟩]

/-- The field of a group: all its names, and the commas behind those in front. -/
def field (group : ParamGroup) : Field :=
  ⟨group.leading.map (·.1) ++ [group.name], group.leading.filterMap (·.2), group.type, none⟩

@[simp]
theorem length_names_field (group : ParamGroup) :
    group.field.names.length = group.entries.length := by
  simp [field, entries]

theorem entries_ne_nil (group : ParamGroup) : group.entries ≠ [] := by
  simp [entries]

end ParamGroup

namespace ParamEntry

/-- Names alone in front of other entries wait for the type of one of these. -/
theorem groupNamed_leading (leading : List (Ident × Option Offset)) (entries : List ParamEntry)
    (names : List Ident) (commas : List Offset) :
    groupNamed (leading.map lone ++ entries) names commas =
      groupNamed entries (names ++ leading.map (·.1)) (commas ++ leading.filterMap (·.2)) := by
  induction leading generalizing names commas with
  | nil => simp
  | cons first leading ih =>
    rw [List.map_cons, List.cons_append, show lone first = ⟨none, .ident first.1, first.2⟩ from rfl,
      groupNamed, ih]
    cases hcomma : first.2 <;> simp [hcomma]

/-- The entries of groups are grouped to the fields of these. -/
theorem groupNamed_flatMap (groups : List ParamGroup) :
    groupNamed (groups.flatMap (·.entries)) [] [] =
      .ok (groups.map (·.field), groups.filterMap (·.comma?)) := by
  induction groups with
  | nil => rfl
  | cons group groups ih =>
    rw [List.flatMap_cons, ParamGroup.entries, List.append_assoc, groupNamed_leading,
      List.singleton_append, groupNamed, ih]
    cases hcomma : group.comma? <;>
      simp [ParamGroup.field, hcomma, Bind.bind, Except.bind, pure, Except.pure]

/-- Whether the entries of a list can be grouped when some have names: the last one has a name, and
any without a name looks like one. -/
structure Groupable (entries : List ParamEntry) : Prop where
  last : ∀ entry ∈ entries.getLast?, entry.name?.isSome
  lone : ∀ entry ∈ entries, entry.name? = none → ∃ name, entry.type = .ident name

theorem Groupable.tail {entry : ParamEntry} {entries : List ParamEntry}
    (h : Groupable (entry :: entries)) : Groupable entries where
  last last hlast := h.last last (by rw [List.getLast?_cons, hlast]; rfl)
  lone other hother := h.lone other (List.mem_cons_of_mem _ hother)

/-- A list that can be grouped falls into groups. -/
theorem exists_groups {entries : List ParamEntry} (h : Groupable entries) :
    ∃ groups : List ParamGroup, entries = groups.flatMap (·.entries) := by
  induction entries with
  | nil => exact ⟨[], rfl⟩
  | cons entry entries ih =>
    obtain ⟨groups, rfl⟩ := ih h.tail
    obtain ⟨name?, type, comma?⟩ := entry
    rcases name? with _ | name
    · -- a name alone belongs to the group behind it, and there is one
      obtain ⟨name, rfl⟩ := h.lone _ List.mem_cons_self rfl
      rcases groups with _ | ⟨group, groups⟩
      · exact absurd (h.last _ rfl) (by simp)
      · exact ⟨{ group with leading := (name, comma?) :: group.leading } :: groups, rfl⟩
    · exact ⟨⟨[], name, type, comma?⟩ :: groups, rfl⟩

/-- Entries that are grouped by their names can be. Without any entry left no name may wait. -/
theorem groupable_of_groupNamed {entries : List ParamEntry} {names : List Ident}
    {commas : List Offset} {grouped : List Field × List Offset}
    (h : groupNamed entries names commas = .ok grouped) :
    Groupable entries ∧ (entries = [] → names = []) := by
  fun_induction groupNamed entries names commas generalizing grouped with
  | case1 names commas name hlast => cases h
  | case2 names commas hlast =>
    exact ⟨⟨nofun, List.forall_mem_nil _⟩, fun _ => List.getLast?_eq_none_iff.1 hlast⟩
  | case3 name type comma? entries names commas ih =>
    rcases hrest : groupNamed entries [] [] with e | rest
    · rw [hrest] at h
      cases h
    obtain ⟨⟨hlast, hlone⟩, -⟩ := ih hrest
    refine ⟨⟨fun entry hentry => ?_, List.forall_mem_cons.2 ⟨nofun, hlone⟩⟩, nofun⟩
    rcases hentries : entries.getLast? with _ | last
    · rw [List.getLast?_cons, hentries] at hentry
      cases hentry
      rfl
    · rw [List.getLast?_cons, hentries] at hentry
      exact hlast entry (hentries ▸ hentry)
  | case4 name comma? entries names commas ih =>
    obtain ⟨⟨hlast, hlone⟩, hnames⟩ := ih h
    refine ⟨⟨fun entry hentry => ?_, List.forall_mem_cons.2 ⟨fun _ => ⟨name, rfl⟩, hlone⟩⟩, nofun⟩
    -- the name waits, so there is an entry behind it
    have hne : entries ≠ [] := fun hnil => by simpa using hnames hnil
    rw [List.getLast?_cons, List.getLast?_eq_some_getLast hne] at hentry
    exact hlast entry (by rw [List.getLast?_eq_some_getLast hne]; exact hentry)
  | case5 type comma? entries names commas htype => cases h

/-- The types of the fields that entries with names are grouped to are those of the entries. -/
private theorem type_of_groupNamed {entries : List ParamEntry} {names : List Ident}
    {commas separators : List Offset} {fields : List Field}
    (h : groupNamed entries names commas = .ok (fields, separators)) :
    ∀ field ∈ fields, ∃ entry ∈ entries, entry.type = field.type := by
  fun_induction groupNamed entries names commas generalizing fields separators with
  | case1 names commas name hlast => cases h
  | case2 names commas hlast =>
    obtain ⟨rfl, -⟩ := Prod.mk.inj (Except.ok.inj h)
    exact List.forall_mem_nil _
  | case3 name type comma? entries names commas ih =>
    rcases hrest : groupNamed entries [] [] with e | ⟨rest, separators'⟩
    · rw [hrest] at h
      cases h
    rw [hrest] at h
    obtain ⟨rfl, -⟩ := Prod.mk.inj (Except.ok.inj h)
    refine List.forall_mem_cons.2 ⟨⟨_, List.mem_cons_self, rfl⟩, fun field hfield => ?_⟩
    obtain ⟨entry, hentry, htype⟩ := ih hrest field hfield
    exact ⟨entry, List.mem_cons_of_mem _ hentry, htype⟩
  | case4 name comma? entries names commas ih =>
    intro field hfield
    obtain ⟨entry, hentry, htype⟩ := ih h field hfield
    exact ⟨entry, List.mem_cons_of_mem _ hentry, htype⟩
  | case5 type comma? entries names commas htype => cases h

/-- The type of a field that entries are grouped to is that of an entry. -/
theorem type_of_group {entries : List ParamEntry} {fields : List Field}
    {separators : List Offset} (h : group entries = .ok (fields, separators)) :
    ∀ field ∈ fields, ∃ entry ∈ entries, entry.type = field.type := by
  rw [group] at h
  split at h
  · obtain ⟨rfl, rfl⟩ := Prod.mk.inj (Except.ok.inj h)
    intro field hfield
    obtain ⟨entry, hentry, rfl⟩ := List.mem_map.1 hfield
    exact ⟨entry, hentry, rfl⟩
  · exact type_of_groupNamed h

/-- Entries that cannot be grouped are refused at what looks like a type and has no name, or at a
name without a type. -/
theorem span_of_group_eq_error {entries : List ParamEntry} {e : ParseError}
    (h : group entries = .error e) :
    ∃ entry ∈ entries, entry.name? = none ∧ e.span = entry.type.span := by
  have hnamed : ∀ (entries : List ParamEntry) names commas,
      groupNamed entries names commas = .error e →
        (∃ entry ∈ entries, entry.name? = none ∧ e.span = entry.type.span) ∨
          ∃ name ∈ names, e.span = name.span := by
    intro entries names commas h
    fun_induction groupNamed entries names commas with
    | case1 names commas name hlast =>
      cases h
      exact .inr ⟨name, List.mem_of_getLast? hlast, rfl⟩
    | case2 names commas hlast => cases h
    | case3 name type comma? entries names commas ih =>
      rcases hrest : groupNamed entries [] [] with e' | rest
      · rw [hrest] at h
        cases h
        obtain ⟨entry, hentry, hspan⟩ | ⟨name, hname, -⟩ := ih hrest
        · exact .inl ⟨entry, List.mem_cons_of_mem _ hentry, hspan⟩
        · cases hname
      · rw [hrest] at h
        cases h
    | case4 name comma? entries names commas ih =>
      obtain ⟨entry, hentry, hspan⟩ | ⟨other, hother, hspan⟩ := ih h
      · exact .inl ⟨entry, List.mem_cons_of_mem _ hentry, hspan⟩
      · rcases List.mem_append.1 hother with hother | hother
        · exact .inr ⟨other, hother, hspan⟩
        · obtain rfl := List.mem_singleton.1 hother
          exact .inl ⟨_, List.mem_cons_self, rfl, hspan⟩
    | case5 type comma? entries names commas htype =>
      cases h
      exact .inl ⟨_, List.mem_cons_self, rfl, rfl⟩
  rw [group] at h
  split at h
  · cases h
  · obtain hentry | ⟨name, hname, -⟩ := hnamed entries [] [] h
    · exact hentry
    · cases hname

end ParamEntry

/-- A list of fields declares as many things as its fields do. -/
theorem FieldList.arity_eq_sum (list : FieldList) :
    list.arity = (list.fields.map (max ·.names.length 1)).sum := by
  rw [FieldList.arity, List.sum_eq_foldl, List.foldl_map]

/-- **How parameters are grouped.** Entries of which none has a name are the types of as many
fields, and all their commas stand between these. Where some have names, they are grouped if and
only if the last one has, and any that has none is a lone name. They fall then into groups, each
with a named entry at its end and lone names in front of it, and each group is a field: it has the
names and the type of the group and the commas behind the names in front, and the comma behind the
type stands between the fields. In either case the fields declare as many things as there are
entries. -/
theorem ParamEntry.fields_of_group (entries : List ParamEntry) :
    ((∀ entry ∈ entries, entry.name? = none) →
        group entries = .ok (entries.map unnamed, entries.filterMap (·.comma?))) ∧
      ((∃ entry ∈ entries, entry.name? ≠ none) →
        ((∃ grouped, group entries = .ok grouped) ↔
            (∃ last ∈ entries.getLast?, last.name? ≠ none) ∧
              ∀ entry ∈ entries, entry.name? = none → ∃ name, entry.type = .ident name) ∧
          ∀ fields separators, group entries = .ok (fields, separators) →
            ∃ groups : List ParamGroup, entries = groups.flatMap (·.entries) ∧
              fields = groups.map (·.field) ∧ separators = groups.filterMap (·.comma?)) ∧
      ∀ list : FieldList, ∀ separators, group entries = .ok (list.fields, separators) →
        list.arity = entries.length := by
  have hunnamed : (∀ entry ∈ entries, entry.name? = none) →
      group entries = .ok (entries.map unnamed, entries.filterMap (·.comma?)) := fun h => by
    rw [group, if_pos]
    exact List.all_eq_true.2 fun entry hentry => by rw [h entry hentry]; rfl
  have hnamed : (∃ entry ∈ entries, entry.name? ≠ none) →
      group entries = groupNamed entries [] [] := fun ⟨entry, hentry, hname⟩ => by
    rw [group, if_neg]
    exact fun hall => hname (Option.isNone_iff_eq_none.1 (List.all_eq_true.1 hall entry hentry))
  -- a list that can be grouped is grouped as its groups are
  have hgroups : Groupable entries → ∃ groups : List ParamGroup,
      entries = groups.flatMap (·.entries) ∧
        groupNamed entries [] [] = .ok (groups.map (·.field), groups.filterMap (·.comma?)) :=
    fun h => by
      obtain ⟨groups, rfl⟩ := exists_groups h
      exact ⟨groups, rfl, groupNamed_flatMap groups⟩
  refine ⟨hunnamed, fun hsome => ⟨⟨?_, ?_⟩, ?_⟩, ?_⟩
  · rintro ⟨grouped, h⟩
    obtain ⟨⟨hlast, hlone⟩, -⟩ := groupable_of_groupNamed (hnamed hsome ▸ h)
    obtain ⟨entry, hentry, -⟩ := hsome
    have hne := List.ne_nil_of_mem hentry
    have hmem := List.getLast?_eq_some_getLast hne
    exact ⟨⟨_, hmem, Option.isSome_iff_ne_none.1 (hlast _ hmem)⟩, hlone⟩
  · rintro ⟨⟨last, hlast, hname⟩, hlone⟩
    have hgroupable : Groupable entries := ⟨fun entry hentry => by
      rw [Option.mem_unique hentry hlast]
      exact Option.isSome_iff_ne_none.2 hname, hlone⟩
    obtain ⟨groups, -, h⟩ := hgroups hgroupable
    exact ⟨_, (hnamed hsome).trans h⟩
  · intro fields separators h
    rw [hnamed hsome] at h
    obtain ⟨groups, hentries, hok⟩ := hgroups (groupable_of_groupNamed h).1
    obtain ⟨rfl, rfl⟩ := Prod.mk.inj (Except.ok.inj (h.symm.trans hok))
    exact ⟨groups, hentries, rfl, rfl⟩
  · intro list separators h
    rw [FieldList.arity_eq_sum]
    by_cases hsome : ∃ entry ∈ entries, entry.name? ≠ none
    · rw [hnamed hsome] at h
      obtain ⟨groups, hentries, hok⟩ := hgroups (groupable_of_groupNamed h).1
      rw [(Prod.mk.inj (Except.ok.inj (h.symm.trans hok))).1, hentries, List.length_flatMap,
        List.map_map]
      refine congrArg List.sum (List.map_congr_left fun group _ => ?_)
      rw [Function.comp_apply, ParamGroup.length_names_field]
      exact Nat.max_eq_left (List.length_pos_iff.2 group.entries_ne_nil)
    · push Not at hsome
      rw [(Prod.mk.inj (Except.ok.inj (h.symm.trans (hunnamed hsome)))).1, List.map_map]
      simp [Function.comp_def, unnamed]

/-- In `a, b int` there are two names of one type. -/
example (a b int : Ident) (comma : Offset) :
    ParamEntry.group [.lone (a, some comma), ⟨some b, .ident int, none⟩] =
      .ok ([⟨[a, b], [comma], .ident int, none⟩], []) := rfl

end GoTrace
