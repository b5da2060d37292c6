import Mathlib.Logic.Relation
import Polypath.Proofs.Json.Members

/-!
# Rearranged documents

Where a member stands among the others does not matter for what it gives, so a path is read from any order of its
members (`gather_perm`). What can be added or taken away without a change are members of other names and empty
sequences: any number of such steps keeps the path that is read (`reads_of_rearranges`). Counting how often each name
is there shows which one is told if a member is added that is there already (`gather_again`).
-/

namespace Polypath.Json

/-! ## Drafts -/

namespace PathDraft

variable (draft : PathDraft) (n : UInt32) (axis : Axis) (values : List Coord)

@[simp]
theorem id_withId : (draft.withId n).id = some n := rfl

@[simp]
theorem id_withCoords : (draft.withCoords axis values).id = draft.id := by
  cases axis <;> rfl

@[simp]
theorem coords_withId : (draft.withId n).coords axis = draft.coords axis := by
  cases axis <;> rfl

@[simp]
theorem coords_withCoords_self : (draft.withCoords axis values).coords axis = some values := by
  cases axis <;> rfl

theorem coords_withCoords_of_ne {axis axis' : Axis} (h : axis' ≠ axis) :
    (draft.withCoords axis values).coords axis' = draft.coords axis' := by
  cases axis <;> cases axis' <;> first | rfl | exact absurd rfl h

theorem withId_withCoords : (draft.withCoords axis values).withId n = (draft.withId n).withCoords axis values := by
  cases axis <;> rfl

theorem withCoords_comm {axis axis' : Axis} (h : axis' ≠ axis) (values' : List Coord) :
    (draft.withCoords axis values).withCoords axis' values' =
      (draft.withCoords axis' values').withCoords axis values := by
  cases axis <;> cases axis' <;> first | rfl | exact absurd rfl h

end PathDraft

section Put

variable {draft draft' : PathDraft}

theorem put_id_eq_ok_iff {n : UInt32} :
    (PathPart.id n).put draft = .ok draft' ↔ draft.id = none ∧ draft.withId n = draft' := by
  rw [PathPart.put, Outcome.refuse_eq_ok_iff, Except.ok.injEq, Option.not_isSome_iff_eq_none]

theorem put_coords_eq_ok_iff {axis : Axis} {values : List Coord} :
    (PathPart.coords axis values).put draft = .ok draft' ↔
      draft.coords axis = none ∧ draft.withCoords axis values = draft' := by
  rw [PathPart.put, Outcome.refuse_eq_ok_iff, Except.ok.injEq, Option.not_isSome_iff_eq_none]

end Put

/-! ## The order of parts -/

section Order

variable {draft draft' : PathDraft} {a b : PathPart} {parts parts' before after : List PathPart}

theorem gather_cons (draft : PathDraft) (a : PathPart) (parts : List PathPart) :
    gather draft (a :: parts) = a.put draft >>= fun next => gather next parts := List.foldlM_cons

theorem gather_append (draft : PathDraft) (before after : List PathPart) :
    gather draft (before ++ after) = gather draft before >>= fun next => gather next after := List.foldlM_append

/-- Two parts that can be put into a draft one after the other can be put into it the other way round. -/
theorem put_comm {next : PathDraft} (ha : a.put draft = .ok next) (hb : b.put next = .ok draft') :
    ∃ next', b.put draft = .ok next' ∧ a.put next' = .ok draft' := by
  cases a with
  | other =>
    cases ha
    exact ⟨draft', hb, rfl⟩
  | id n =>
    obtain ⟨hid, rfl⟩ := put_id_eq_ok_iff.mp ha
    cases b with
    | other =>
      cases hb
      exact ⟨draft, rfl, ha⟩
    | id k =>
      obtain ⟨hsome, -⟩ := put_id_eq_ok_iff.mp hb
      cases hsome
    | coords axis values =>
      obtain ⟨haxis, rfl⟩ := put_coords_eq_ok_iff.mp hb
      rw [PathDraft.coords_withId] at haxis
      refine ⟨draft.withCoords axis values, put_coords_eq_ok_iff.mpr ⟨haxis, rfl⟩, put_id_eq_ok_iff.mpr ⟨?_, ?_⟩⟩
      · rw [PathDraft.id_withCoords, hid]
      · rw [PathDraft.withId_withCoords]
  | coords axis values =>
    obtain ⟨haxis, rfl⟩ := put_coords_eq_ok_iff.mp ha
    cases b with
    | other =>
      cases hb
      exact ⟨draft, rfl, ha⟩
    | id k =>
      obtain ⟨hid, rfl⟩ := put_id_eq_ok_iff.mp hb
      rw [PathDraft.id_withCoords] at hid
      refine ⟨draft.withId k, put_id_eq_ok_iff.mpr ⟨hid, rfl⟩, put_coords_eq_ok_iff.mpr ⟨?_, ?_⟩⟩
      · rw [PathDraft.coords_withId, haxis]
      · rw [PathDraft.withId_withCoords]
    | coords axis' values' =>
      obtain ⟨haxis', rfl⟩ := put_coords_eq_ok_iff.mp hb
      -- the second of two sequences along one axis is refused
      have hne : axis' ≠ axis := by
        rintro rfl
        rw [PathDraft.coords_withCoords_self] at haxis'
        cases haxis'
      rw [draft.coords_withCoords_of_ne values hne] at haxis'
      refine ⟨draft.withCoords axis' values', put_coords_eq_ok_iff.mpr ⟨haxis', rfl⟩,
        put_coords_eq_ok_iff.mpr ⟨?_, ?_⟩⟩
      · rw [draft.coords_withCoords_of_ne values' hne.symm, haxis]
      · rw [draft.withCoords_comm values hne]

/-- Parts are put together in any order. -/
theorem gather_perm (h : parts.Perm parts') (hgather : gather draft parts = .ok draft') :
    gather draft parts' = .ok draft' := by
  induction h generalizing draft with
  | nil => exact hgather
  | cons a _ ih =>
    rw [gather_cons] at hgather ⊢
    obtain ⟨next, hput, hgather⟩ := Outcome.bind_eq_ok_iff.mp hgather
    exact Outcome.bind_eq_ok_iff.mpr ⟨next, hput, ih hgather⟩
  | swap a b parts =>
    rw [gather_cons] at hgather ⊢
    obtain ⟨next, hb, hgather⟩ := Outcome.bind_eq_ok_iff.mp hgather
    rw [gather_cons] at hgather
    obtain ⟨last, ha, hgather⟩ := Outcome.bind_eq_ok_iff.mp hgather
    obtain ⟨next', ha', hb'⟩ := put_comm hb ha
    refine Outcome.bind_eq_ok_iff.mpr ⟨next', ha', ?_⟩
    rw [gather_cons]
    exact Outcome.bind_eq_ok_iff.mpr ⟨last, hb', hgather⟩
  | trans _ _ ih ih' => exact ih' (ih hgather)

/-- A part among others might as well come last. -/
theorem gather_middle_eq_ok_iff :
    gather draft (before ++ a :: after) = .ok draft' ↔
      ∃ next, gather draft (before ++ after) = .ok next ∧ a.put next = .ok draft' := by
  have hperm : (before ++ a :: after).Perm ((before ++ after) ++ [a]) :=
    List.perm_middle.trans (List.perm_append_singleton a (before ++ after)).symm
  have hlast : gather draft ((before ++ after) ++ [a]) = gather draft (before ++ after) >>= a.put := by
    rw [gather_append]
    refine bind_congr fun next => ?_
    rw [gather_cons]
    exact bind_pure _
  rw [← Outcome.bind_eq_ok_iff, ← hlast]
  exact ⟨gather_perm hperm, gather_perm hperm.symm⟩

end Order

/-! ## Names that are there twice -/

/-- The name of the member that gives a part. -/
def PathPart.name? : PathPart → Option String
  | .other => none
  | .id _ => some "id"
  | .coords axis _ => some axis.name

/-- The names of the parts. -/
def namesOf (parts : List PathPart) : List String := parts.filterMap PathPart.name?

/-- The names of what a draft has. -/
def PathDraft.names (draft : PathDraft) : List String :=
  (draft.id.toList.map fun _ => "id") ++
    (((draft.coords .x).toList.map fun _ => Axis.x.name) ++ ((draft.coords .y).toList.map fun _ => Axis.y.name))

section Names

variable {draft draft' : PathDraft} {a : PathPart} {parts before after : List PathPart} {name : String}

theorem namesOf_cons (a : PathPart) (parts : List PathPart) :
    namesOf (a :: parts) = a.name?.toList ++ namesOf parts := by
  unfold namesOf
  cases h : a.name? with
  | none => rw [List.filterMap_cons_none h]; rfl
  | some name => rw [List.filterMap_cons_some h]; rfl

theorem namesOf_append (parts parts' : List PathPart) : namesOf (parts ++ parts') = namesOf parts ++ namesOf parts' :=
  List.filterMap_append

/-- A draft has nothing twice. -/
theorem count_names_le (draft : PathDraft) (name : String) : draft.names.count name ≤ 1 := by
  have hnodup : draft.names.Nodup := by
    obtain ⟨id, x, y⟩ := draft
    cases id <;> cases x <;> cases y <;> simp [PathDraft.names, PathDraft.coords, Axis.name]
  exact List.nodup_iff_count_le_one.mp hnodup name

/-- Putting a part in adds its name. -/
theorem names_put (h : a.put draft = .ok draft') : draft'.names.Perm (a.name?.toList ++ draft.names) := by
  cases a with
  | other =>
    cases h
    exact .refl _
  | id n =>
    obtain ⟨hid, rfl⟩ := put_id_eq_ok_iff.mp h
    simp only [PathDraft.names, hid, PathDraft.id_withId, PathDraft.coords_withId]
    exact .refl _
  | coords axis values =>
    obtain ⟨haxis, rfl⟩ := put_coords_eq_ok_iff.mp h
    cases axis with
    | x =>
      simp only [PathDraft.names, haxis, PathDraft.id_withCoords, PathDraft.coords_withCoords_self,
        draft.coords_withCoords_of_ne values (show Axis.y ≠ Axis.x by decide)]
      exact List.perm_middle
    | y =>
      simp only [PathDraft.names, haxis, PathDraft.id_withCoords, PathDraft.coords_withCoords_self,
        draft.coords_withCoords_of_ne values (show Axis.x ≠ Axis.y by decide)]
      have hlast : ∀ ids xs : List String,
          (ids ++ (xs ++ [Axis.y.name])).Perm (Axis.y.name :: (ids ++ (xs ++ []))) := by
        intro ids xs
        rw [List.append_nil, ← List.append_assoc]
        exact List.perm_append_singleton _ _
      exact hlast _ _

theorem mem_names_of_coords {axis : Axis} (h : (draft.coords axis).isSome = true) : axis.name ∈ draft.names := by
  obtain ⟨values, hvalues⟩ := Option.isSome_iff_exists.mp h
  cases axis with
  | x => simp [PathDraft.names, hvalues]
  | y => simp [PathDraft.names, hvalues]

theorem put_eq_error (h : a.put draft = .error name) : name ∈ draft.names ∧ a.name? = some name := by
  cases a with
  | other => cases h
  | id n =>
    rw [PathPart.put] at h
    split at h
    next hid =>
      cases h
      obtain ⟨k, hk⟩ := Option.isSome_iff_exists.mp hid
      exact ⟨by simp [PathDraft.names, hk], rfl⟩
    next => cases h
  | coords axis values =>
    rw [PathPart.put] at h
    split at h
    next haxis =>
      cases h
      exact ⟨mem_names_of_coords haxis, rfl⟩
    next => cases h

/-- A draft has the names of the parts that were put into it. -/
theorem names_gather (h : gather draft parts = .ok draft') : draft'.names.Perm (namesOf parts ++ draft.names) := by
  induction parts generalizing draft with
  | nil =>
    cases h
    exact .refl _
  | cons a parts ih =>
    rw [gather_cons] at h
    obtain ⟨next, hput, h⟩ := Outcome.bind_eq_ok_iff.mp h
    rw [namesOf_cons, List.append_assoc]
    calc draft'.names.Perm (namesOf parts ++ next.names) := ih h
      _ |>.Perm (namesOf parts ++ (a.name?.toList ++ draft.names)) := (names_put hput).append_left _
      _ |>.Perm (a.name?.toList ++ (namesOf parts ++ draft.names)) := by
        rw [← List.append_assoc, ← List.append_assoc]
        exact List.perm_append_comm.append_right _

/-- What is told to be there twice is. -/
theorem two_le_count_of_gather (h : gather draft parts = .error name) :
    2 ≤ (namesOf parts ++ draft.names).count name := by
  induction parts generalizing draft with
  | nil => cases h
  | cons a parts ih =>
    rw [gather_cons] at h
    rw [namesOf_cons, List.append_assoc]
    cases hput : a.put draft with
    | error name' =>
      rw [hput] at h
      cases h
      obtain ⟨hmem, hname⟩ := put_eq_error hput
      have hpos := List.count_pos_iff.mpr hmem
      simp [hname]
      omega
    | ok next =>
      rw [hput] at h
      have hcount := (names_put hput).count_eq name
      have htwo := ih h
      simp only [List.count_append] at hcount htwo ⊢
      omega

theorem count_namesOf_middle (name : String) :
    (namesOf (before ++ a :: after)).count name =
      (namesOf (before ++ after)).count name + a.name?.toList.count name := by
  rw [namesOf_append, namesOf_append, namesOf_cons]
  simp only [List.count_append]
  omega

/-- A part whose name is there already is told to be there twice. -/
theorem gather_again (h : gather draft (before ++ after) = .ok draft') (ha : a.name? = some name)
    (hname : name ∈ namesOf (before ++ after)) : gather draft (before ++ a :: after) = .error name := by
  have honce := fun name' => (names_gather h).count_eq name' ▸ count_names_le draft' name'
  cases hgather : gather draft (before ++ a :: after) with
  | ok last =>
    -- two parts of one name are more than any draft has
    have hlast := (names_gather hgather).count_eq name ▸ count_names_le last name
    have hpos := List.count_pos_iff.mpr hname
    rw [List.count_append, count_namesOf_middle, ha, Option.toList_some, List.count_singleton_self] at hlast
    omega
  | error name' =>
    -- every other name is there at most once
    have htwo := two_le_count_of_gather hgather
    have hle := honce name'
    rw [List.count_append] at htwo hle
    rw [count_namesOf_middle, ha, Option.toList_some] at htwo
    have hmem : name' ∈ [name] := List.count_pos_iff.mp (by omega)
    rw [List.mem_singleton.mp hmem]

end Names

/-! ## Rearranging -/

/-- A member that a path has no use for. -/
def MemberText.IsOther (m : MemberText) : Prop := m.name ∉ ["id".toList, "x".toList, "y".toList]

instance (m : MemberText) : Decidable m.IsOther := inferInstanceAs (Decidable (m.name ∉ _))

/-- A member that is the empty sequence along an axis. -/
structure MemberText.IsEmptyAlong (m : MemberText) (axis : Axis) : Prop where
  name : m.name = axis.name.toList
  value : m.value = [.opening .list, .closing .list]

/-- The members are rearranged in one step, and nothing is lost that a path is made of. -/
inductive Rearranges : List MemberText → List MemberText → Prop where
  | reorder {ms ms' : List MemberText} : ms.Perm ms' → Rearranges ms ms'
  | addOther {m : MemberText} (before after : List MemberText) : m.IsOther →
      Rearranges (before ++ after) (before ++ m :: after)
  | removeOther {m : MemberText} (before after : List MemberText) : m.IsOther →
      Rearranges (before ++ m :: after) (before ++ after)
  | addEmpty {m : MemberText} {axis : Axis} (before after : List MemberText) : m.IsEmptyAlong axis →
      (∀ m' ∈ before ++ after, m'.name ≠ axis.name.toList) → Rearranges (before ++ after) (before ++ m :: after)
  | removeEmpty {m : MemberText} {axis : Axis} (before after : List MemberText) : m.IsEmptyAlong axis →
      Rearranges (before ++ m :: after) (before ++ after)

/-- The members give the path: all their values are of the right type, and their parts make it. -/
structure Reads (ms : List MemberText) (p : Path) : Prop where
  typed : ∀ m ∈ ms, m.part?.isSome = true
  made : ∃ draft, gather pathRecord.start (partsOf ms) = .ok draft ∧ pathRecord.finish draft = .ok p

section Rearranging

variable {m : MemberText} {ms ms' before after : List MemberText} {part : PathPart} {axis : Axis} {text : List Char}
  {p : Path} {draft : PathDraft}

theorem assemble_eq_ok_iff {parts : List PathPart} :
    assemble parts = .ok p ↔ ∃ draft, gather pathRecord.start parts = .ok draft ∧ pathRecord.finish draft = .ok p := by
  simp only [assemble, Outcome.bind_eq_ok_iff, Outcome.mapError_eq_ok_iff]

theorem readPath_eq_ok_iff (h : WritesObject ms text) : readPath text = .ok p ↔ Reads ms p := by
  constructor
  · intro hread
    have htyped := isSome_part?_of_readPath h hread
    have hmade := readPath_parts h htyped
    rw [hread] at hmade
    exact ⟨htyped, assemble_eq_ok_iff.mp hmade.symm⟩
  · rintro ⟨htyped, hmade⟩
    have hread := readPath_parts h htyped
    rw [assemble_eq_ok_iff.mpr hmade] at hread
    exact Outcome.mapError_eq_ok_iff.mp hread

theorem part?_of_isOther (h : m.IsOther) : m.part? = some .other := by
  simp only [MemberText.IsOther, List.mem_cons, List.not_mem_nil, or_false, not_or] at h
  rw [MemberText.part?, if_neg h.1, if_neg h.2.1, if_neg h.2.2]

theorem part?_of_isEmptyAlong (h : m.IsEmptyAlong axis) : m.part? = some (.coords axis []) := by
  have hcoords : coordsOf? m.value = some [] := by rw [h.value]; rfl
  cases axis with
  | x =>
    have hname : m.name = "x".toList := h.name
    rw [MemberText.part?, hname, if_neg (by decide), if_pos rfl, hcoords]
    rfl
  | y =>
    have hname : m.name = "y".toList := h.name
    rw [MemberText.part?, hname, if_neg (by decide), if_neg (by decide), if_pos rfl, hcoords]
    rfl

/-- A member of the path's own gives a part of its name. -/
theorem name?_of_part? (h : m.part? = some part) :
    m.IsOther ∨ ∃ name, part.name? = some name ∧ name.toList = m.name := by
  unfold MemberText.part? at h
  split at h
  next hid =>
    obtain ⟨n, -, rfl⟩ := Option.map_eq_some_iff.mp h
    exact .inr ⟨_, rfl, hid.symm⟩
  next hid =>
    split at h
    next hx =>
      obtain ⟨values, -, rfl⟩ := Option.map_eq_some_iff.mp h
      exact .inr ⟨_, rfl, hx.symm⟩
    next hx =>
      split at h
      next hy =>
        obtain ⟨values, -, rfl⟩ := Option.map_eq_some_iff.mp h
        exact .inr ⟨_, rfl, hy.symm⟩
      next hy =>
        refine .inl ?_
        simp only [MemberText.IsOther, List.mem_cons, List.not_mem_nil, or_false, not_or]
        exact ⟨hid, hx, hy⟩

theorem name_of_part? {name : String} (h : m.part? = some part) (hname : part.name? = some name) :
    m.name = name.toList := by
  obtain hother | ⟨name', hname', hm⟩ := name?_of_part? h
  · rw [part?_of_isOther hother] at h
    cases h
    cases hname
  · rw [hname] at hname'
    cases hname'
    exact hm.symm

theorem exists_mem_of_mem_namesOf {name : String} (h : name ∈ namesOf (partsOf ms)) :
    ∃ m ∈ ms, m.name = name.toList := by
  obtain ⟨part, hpart, hname⟩ := List.mem_filterMap.mp h
  obtain ⟨m, hm, hpart⟩ := List.mem_filterMap.mp hpart
  exact ⟨m, hm, name_of_part? hpart hname⟩

theorem partsOf_append (ms ms' : List MemberText) : partsOf (ms ++ ms') = partsOf ms ++ partsOf ms' :=
  List.filterMap_append

theorem partsOf_middle (h : m.part? = some part) :
    partsOf (before ++ m :: after) = partsOf before ++ part :: partsOf after := by
  rw [partsOf_append, partsOf_cons h]

theorem forall_isSome_middle_iff (before after : List MemberText) (h : m.part? = some part) :
    (∀ m' ∈ before ++ m :: after, m'.part?.isSome = true) ↔ ∀ m' ∈ before ++ after, m'.part?.isSome = true := by
  rw [List.forall_mem_append, List.forall_mem_append, List.forall_mem_cons, h]
  simp

/-- A member among others might as well be put in last. -/
theorem reads_middle_iff (h : m.part? = some part) :
    Reads (before ++ m :: after) p ↔ (∀ m' ∈ before ++ after, m'.part?.isSome = true) ∧
      ∃ draft last, gather pathRecord.start (partsOf (before ++ after)) = .ok draft ∧ part.put draft = .ok last ∧
        pathRecord.finish last = .ok p := by
  have hsplit := forall_isSome_middle_iff before after h
  constructor
  · rintro ⟨htyped, last, hgather, hfinish⟩
    rw [partsOf_middle h] at hgather
    obtain ⟨draft, hgather, hput⟩ := gather_middle_eq_ok_iff.mp hgather
    exact ⟨hsplit.mp htyped, draft, last, by rw [partsOf_append, hgather], hput, hfinish⟩
  · rintro ⟨htyped, draft, last, hgather, hput, hfinish⟩
    rw [partsOf_append] at hgather
    refine ⟨hsplit.mpr htyped, last, ?_, hfinish⟩
    rw [partsOf_middle h]
    exact gather_middle_eq_ok_iff.mpr ⟨draft, hgather, hput⟩

/-- Other members make no difference. -/
theorem reads_other_iff (h : m.IsOther) : Reads (before ++ m :: after) p ↔ Reads (before ++ after) p := by
  rw [reads_middle_iff (part?_of_isOther h)]
  constructor
  · rintro ⟨htyped, draft, last, hgather, hput, hfinish⟩
    cases hput
    exact ⟨htyped, draft, hgather, hfinish⟩
  · rintro ⟨htyped, draft, hgather, hfinish⟩
    exact ⟨htyped, draft, draft, hgather, rfl, hfinish⟩

/-- A missing sequence is an empty one. -/
theorem finish_withCoords_nil (h : draft.coords axis = none) :
    pathRecord.finish (draft.withCoords axis []) = pathRecord.finish draft := by
  obtain ⟨id, x, y⟩ := draft
  cases axis with
  | x =>
    cases h
    rfl
  | y =>
    cases h
    rfl

theorem reads_of_removed_empty (h : m.IsEmptyAlong axis) (hreads : Reads (before ++ m :: after) p) :
    Reads (before ++ after) p := by
  obtain ⟨htyped, draft, last, hgather, hput, hfinish⟩ := (reads_middle_iff (part?_of_isEmptyAlong h)).mp hreads
  obtain ⟨haxis, rfl⟩ := put_coords_eq_ok_iff.mp hput
  rw [finish_withCoords_nil haxis] at hfinish
  exact ⟨htyped, draft, hgather, hfinish⟩

/-- A sequence that no member gives is not in the draft. -/
theorem coords_eq_none (hms : ∀ m ∈ ms, m.name ≠ axis.name.toList)
    (h : gather pathRecord.start (partsOf ms) = .ok draft) : draft.coords axis = none := by
  rw [← Option.not_isSome_iff_eq_none]
  intro hsome
  have hmem := (names_gather h).mem_iff.mp (mem_names_of_coords hsome)
  rw [show pathRecord.start.names = [] from rfl, List.append_nil] at hmem
  obtain ⟨m, hm, hname⟩ := exists_mem_of_mem_namesOf hmem
  exact hms m hm hname

theorem reads_of_added_empty (h : m.IsEmptyAlong axis) (habsent : ∀ m' ∈ before ++ after, m'.name ≠ axis.name.toList)
    (hreads : Reads (before ++ after) p) : Reads (before ++ m :: after) p := by
  obtain ⟨htyped, draft, hgather, hfinish⟩ := hreads
  have haxis := coords_eq_none habsent hgather
  refine (reads_middle_iff (part?_of_isEmptyAlong h)).mpr ⟨htyped, draft, draft.withCoords axis [], hgather, ?_, ?_⟩
  · exact put_coords_eq_ok_iff.mpr ⟨haxis, rfl⟩
  · rw [finish_withCoords_nil haxis, hfinish]

theorem reads_of_perm (h : ms.Perm ms') (hreads : Reads ms p) : Reads ms' p := by
  obtain ⟨htyped, draft, hgather, hfinish⟩ := hreads
  exact ⟨fun m hm => htyped m (h.mem_iff.mpr hm), draft, gather_perm (h.filterMap _) hgather, hfinish⟩

/-- A step of rearranging keeps the path. -/
theorem reads_of_rearranges (h : Rearranges ms ms') (hreads : Reads ms p) : Reads ms' p := by
  cases h with
  | reorder hperm => exact reads_of_perm hperm hreads
  | addOther before after hother => exact (reads_other_iff hother).mpr hreads
  | removeOther before after hother => exact (reads_other_iff hother).mp hreads
  | addEmpty before after hempty habsent => exact reads_of_added_empty hempty habsent hreads
  | removeEmpty before after hempty => exact reads_of_removed_empty hempty hreads

/-- So does any number of them. -/
theorem reads_of_steps (h : Relation.ReflTransGen Rearranges ms ms') (hreads : Reads ms p) : Reads ms' p := by
  induction h with
  | refl => exact hreads
  | tail _ hstep ih => exact reads_of_rearranges hstep ih

end Rearranging

/-! ## Members too many or too few -/

section Refused

variable {m : MemberText} {before after : List MemberText} {text : List Char} {p : Path}

theorem exists_refusal {fault : Fault} (h : (readPath text).mapError Refusal.fault = .error fault) :
    ∃ place, readPath text = .error ⟨fault, place⟩ := by
  cases hread : readPath text with
  | error refusal =>
    rw [hread] at h
    cases h
    exact ⟨refusal.position, rfl⟩
  | ok p =>
    rw [hread] at h
    cases h

theorem name?_of_own {member : Member PathDraft} {part : PathPart} (hmember : member ∈ pathRecord.members)
    (hname : m.name = member.name.toList) (hpart : m.part? = some part) : part.name? = some member.name := by
  obtain hother | ⟨name, hpartname, hm⟩ := name?_of_part? hpart
  · refine absurd ?_ hother
    rw [hname]
    rcases mem_members_iff.mp hmember with rfl | rfl | rfl
    · exact List.mem_cons_self
    · exact List.mem_cons_of_mem _ List.mem_cons_self
    · exact List.mem_cons_of_mem _ (List.mem_cons_of_mem _ List.mem_cons_self)
  · rw [hpartname, String.toList_injective (hm.trans hname)]

/-- A second member of the path's own is refused, wherever it stands. -/
theorem readPath_again {member : Member PathDraft} (hreads : Reads (before ++ after) p)
    (hmember : member ∈ pathRecord.members) (hname : m.name = member.name.toList) (htyped : m.part?.isSome = true)
    (hthere : ∃ m' ∈ before ++ after, m'.name = m.name) (h : WritesObject (before ++ m :: after) text) :
    (readPath text).mapError Refusal.fault = .error (.duplicateField member.name) := by
  obtain ⟨part, hpart⟩ := Option.isSome_iff_exists.mp htyped
  obtain ⟨m', hm', hsame⟩ := hthere
  obtain ⟨htyped', draft, hgather, -⟩ := hreads
  obtain ⟨part', hpart'⟩ := Option.isSome_iff_exists.mp (htyped' m' hm')
  have hmem : member.name ∈ namesOf (partsOf (before ++ after)) :=
    List.mem_filterMap.mpr ⟨part', List.mem_filterMap.mpr ⟨m', hm', hpart'⟩,
      name?_of_own hmember (hsame.trans hname) hpart'⟩
  rw [partsOf_append] at hgather hmem
  have hagain := gather_again hgather (name?_of_own hmember hname hpart) hmem
  rw [readPath_parts h ((forall_isSome_middle_iff before after hpart).mpr htyped'), partsOf_middle hpart, assemble,
    hagain]
  rfl

/-- A path without its number is refused. -/
theorem readPath_without_id (hreads : Reads (before ++ m :: after) p) (hname : m.name = "id".toList)
    (h : WritesObject (before ++ after) text) :
    (readPath text).mapError Refusal.fault = .error (.missingField "id") := by
  obtain ⟨part, hpart⟩ := Option.isSome_iff_exists.mp (hreads.typed m List.mem_append_cons_self)
  obtain ⟨htyped, draft, last, hgather, hput, -⟩ := (reads_middle_iff hpart).mp hreads
  rw [MemberText.part?, if_pos hname] at hpart
  obtain ⟨n, -, rfl⟩ := Option.map_eq_some_iff.mp hpart
  obtain ⟨hid, -⟩ := put_id_eq_ok_iff.mp hput
  have hfinish : pathRecord.finish draft = .error "id" := by simp only [pathRecord, hid]
  rw [readPath_parts h htyped, assemble, hgather, Outcome.mapError_ok, Outcome.ok_bind, hfinish]
  rfl

end Refused

/-! ## Documents -/

/-- Tokens with the same space before each of them. -/
def spread (gap : List Char) (ts : List Token) : List Char := ts.flatMap fun t => gap ++ t.text

theorem spaced_spread {gap : List Char} (hgap : ∀ c ∈ gap, isSpace c = true) (ts : List Token) :
    Spaced ts (spread gap ts) := by
  induction ts with
  | nil => exact .nil
  | cons t ts ih =>
    rw [spread, List.flatMap_cons, List.append_assoc]
    exact .cons t hgap ih

/-- Any members can be written. -/
theorem writesObject_spread {gap : List Char} (hgap : ∀ c ∈ gap, isSpace c = true) (ms : List MemberText) :
    WritesObject ms (spread gap (.opening .object :: memberTokens true ms)) :=
  ⟨_, [], (List.append_nil _).symm, spaced_spread hgap _, List.forall_mem_nil _⟩

/-- **Order and noise do not matter.** Every object that is read as a path is written as a list of members. Any
rearrangement of them, written with any space, is read as the same path. A second `id`, `x` or `y` with a value of its
type is refused as such wherever it stands, and so is a document without its `id`. -/
theorem rearranged_documents_read_alike :
    (∀ text p, readPath text = .ok p → (skipSpace text).head? = some '\x7b' → ∃ ms, WritesObject ms text) ∧
    ∀ ms text p, WritesObject ms text → readPath text = .ok p →
      (∀ ms' text', Relation.ReflTransGen Rearranges ms ms' → WritesObject ms' text' → readPath text' = .ok p) ∧
      (∀ before after m text', ms = before ++ after → WritesObject (before ++ m :: after) text' →
        ∀ member ∈ pathRecord.members, m.name = member.name.toList → m.part?.isSome = true →
          (∃ m' ∈ ms, m'.name = m.name) →
          ∃ place, readPath text' = .error ⟨.duplicateField member.name, place⟩) ∧
      ∀ before m after text', ms = before ++ m :: after → WritesObject (before ++ after) text' →
        m.name = "id".toList → ∃ place, readPath text' = .error ⟨.missingField "id", place⟩ := by
  refine ⟨fun text p => writesObject_of_readPath, ?_⟩
  intro ms text p hwrites hread
  have hreads := (readPath_eq_ok_iff hwrites).mp hread
  refine ⟨?_, ?_, ?_⟩
  · intro ms' text' hsteps hwrites'
    exact (readPath_eq_ok_iff hwrites').mpr (reads_of_steps hsteps hreads)
  · rintro before after m text' rfl hwrites' member hmember hname htyped hthere
    exact exists_refusal (readPath_again hreads hmember hname htyped hthere hwrites')
  · rintro before m after text' rfl hwrites' hname
    exact exists_refusal (readPath_without_id hreads hname hwrites')

theorem unescapes_id : Unescapes ['\\', 'u', '0', '0', '6', '9', 'd'] ['i', 'd'] := by
  have hunit : WritesUnit ['0', '0', '6', '9'] (((0 * 16 + 0) * 16 + 6) * 16 + 9) := .digits rfl rfl rfl rfl
  have hchar : WritesChar ['u', '0', '0', '6', '9'] 'i' := .unit hunit rfl rfl
  have hrest : Unescapes ['d'] ['d'] := .plain rfl .nil
  exact .escape hchar hrest

/-- The digit seven. -/
def seven : NumberText := ⟨_, _, writesNumeral_text (proper_toDigits 7)⟩

/-- The member `id` with an escaped key. -/
def escapedId : MemberText where
  key := ⟨_, unescapes_id.escaped⟩
  name := ['i', 'd']
  value := [.number seven]
  unescapes := unescapes_id
  derives := .scalar rfl

/-- An empty member `x`. -/
def emptyX : MemberText where
  key := ⟨['x'], .plain rfl .nil⟩
  name := ['x']
  value := [.opening .list, .closing .list]
  unescapes := .plain rfl .nil
  derives := .empty .list

/-- A member `y` with one coordinate. -/
def singleY : MemberText where
  key := ⟨['y'], .plain rfl .nil⟩
  name := ['y']
  value := [.opening .list, .number seven, .closing .list]
  unescapes := .plain rfl .nil
  derives := .filled .list (.scalar rfl) (.close .list)

/-- A member of another name, with a value inside two brackets. -/
def nestedNull : MemberText where
  key := ⟨['k'], .plain rfl .nil⟩
  name := ['k']
  value := [.opening .list, .opening .object, .string ⟨[], .nil⟩, .colon, .null, .closing .object, .closing .list]
  unescapes := .plain rfl .nil
  derives := .filled .list (.filled (.object ⟨[], .nil⟩) (.scalar rfl) (.close .object)) (.close .list)

theorem rearranged_documents_read_alike_escaped :
    readPath "\x7b\"\\u0069d\":7,\"x\":[],\"y\":[7]\x7d".toList = .ok ⟨7, [], [⟨0x401C000000000000⟩]⟩ ∧
    readPath " \x7b \"k\" : [ \x7b \"\" : null \x7d ] , \"y\" : [ 7 ] , \"\\u0069d\" : 7 \x7d".toList =
      .ok ⟨7, [], [⟨0x401C000000000000⟩]⟩ ∧
    (∃ place, readPath "\x7b\"x\":[],\"\\u0069d\":7,\"x\":[],\"y\":[7]\x7d".toList =
      .error ⟨.duplicateField "x", place⟩) ∧
    ∃ place, readPath "\x7b\"x\":[],\"y\":[7]\x7d".toList = .error ⟨.missingField "id", place⟩ := by
  have hnone : ∀ c ∈ ([] : List Char), isSpace c = true := List.forall_mem_nil _
  have hspace : ∀ c ∈ [' '], isSpace c = true := List.forall_mem_singleton.mpr rfl
  have hwrites := writesObject_spread hnone [escapedId, emptyX, singleY]
  have hvalue : (Decimal.Number.natural 7).toCoord = ⟨0x401C000000000000⟩ := rfl
  have hreads : Reads [escapedId, emptyX, singleY] ⟨7, [], [(Decimal.Number.natural 7).toCoord]⟩ :=
    ⟨List.all_eq_true.mp rfl, ⟨some 7, some [], some [(Decimal.Number.natural 7).toCoord]⟩, rfl, rfl⟩
  rw [hvalue] at hreads
  have hread := (readPath_eq_ok_iff hwrites).mpr hreads
  obtain ⟨hsteps, hagain, hwithout⟩ := rearranged_documents_read_alike.2 _ _ _ hwrites hread
  refine ⟨hread, ?_, ?_, ?_⟩
  · have hempty : emptyX.IsEmptyAlong .x := ⟨rfl, rfl⟩
    have hremove : Rearranges [escapedId, emptyX, singleY] [escapedId, singleY] :=
      .removeEmpty [escapedId] [singleY] hempty
    have hswap : Rearranges [escapedId, singleY] [singleY, escapedId] := .reorder (.swap singleY escapedId [])
    have hadd : Rearranges [singleY, escapedId] [nestedNull, singleY, escapedId] :=
      .addOther [] [singleY, escapedId] (by decide)
    exact hsteps [nestedNull, singleY, escapedId] _ (.tail (.tail (.single hremove) hswap) hadd)
      (writesObject_spread hspace [nestedNull, singleY, escapedId])
  · exact hagain [] [escapedId, emptyX, singleY] emptyX _ rfl
      (writesObject_spread hnone [emptyX, escapedId, emptyX, singleY]) xMember
      (List.mem_cons_of_mem _ List.mem_cons_self) rfl rfl ⟨emptyX, List.mem_cons_of_mem _ List.mem_cons_self, rfl⟩
  · exact hwithout [] escapedId [emptyX, singleY] _ rfl (writesObject_spread hnone [emptyX, singleY]) rfl

end Polypath.Json
