import Mathlib.Data.List.Induction
import Mathlib.Data.List.Nodup
import Templates.Text.Basic

/-!
Lists of things with names, gathered by these.

Main statement: what is gathered by name is in its old order exactly if no name came back after
another one.
-/

namespace Templates

variable {α : Type}

/-- A last name is listed behind the others if it is not one of them. -/
theorem eraseDups_snoc (names : List Text) (name : Text) :
    (names ++ [name]).eraseDups =
      if name ∈ names then names.eraseDups else names.eraseDups ++ [name] := by
  have once : [name].eraseDups = [name] := by simp [List.eraseDups_cons]
  rw [List.eraseDups_append]
  by_cases seen : name ∈ names <;> simp [seen, once, List.removeAll]

/-- Each of several names is listed once. -/
theorem nodup_eraseDups (names : List Text) : names.eraseDups.Nodup := by
  induction names using List.reverseRecOn with
  | nil => exact List.nodup_nil
  | append_singleton names name ih =>
    rw [eraseDups_snoc]
    split
    · exact ih
    · next other =>
      -- The last name has not been listed before.
      refine List.nodup_append.mpr ⟨ih, List.nodup_singleton name, fun x listed y last => ?_⟩
      rw [List.mem_singleton.mp last]
      exact ne_of_mem_of_not_mem (List.mem_eraseDups.mp listed) other

/-- Items with names, those of one name next to each other, in the order of the first ones. -/
def gathered (items : List (Text × α)) : List (Text × α) :=
  (items.map Prod.fst).eraseDups.flatMap fun name => items.filter fun item => item.1 = name

/-- No name comes back after another one. -/
def Together (names : List Text) : Prop :=
  ∀ first other, [first, other, first].Sublist names → other = first

/-- The first item comes with all others of its name, and the rest is gathered behind. -/
theorem gathered_cons (item : Text × α) (rest : List (Text × α)) :
    gathered (item :: rest) =
      item :: (rest.filter fun other => other.1 = item.1) ++
        gathered (rest.filter fun other => other.1 ≠ item.1) := by
  have names : (rest.map Prod.fst).filter (fun name => !name == item.1) =
      (rest.filter fun other => other.1 ≠ item.1).map Prod.fst := by
    rw [List.filter_map]
    congr 1
    exact List.filter_congr fun other _ => by by_cases same : other.1 = item.1 <;> simp [same]
  rw [gathered, gathered, List.map_cons, List.eraseDups_cons, List.flatMap_cons, names,
    List.filter_cons_of_pos (by simp)]
  congr 1
  -- The items of another name are those of the rest without the name of the first one.
  refine List.flatMap_congr fun name listed => ?_
  obtain ⟨other, kept, rfl⟩ := List.mem_map.mp (List.mem_eraseDups.mp listed)
  have apart : other.1 ≠ item.1 := by simpa using (List.mem_filter.mp kept).2
  rw [List.filter_cons_of_neg (by simpa using Ne.symm apart), List.filter_filter]
  refine List.filter_congr fun third _ => ?_
  by_cases same : third.1 = other.1 <;> simp [same, apart]

/-- What holds of items if it does so without those of the first name holds of all. -/
@[elab_as_elim]
theorem induction_byName {motive : List (Text × α) → Prop} (nil : motive [])
    (cons : ∀ item rest, motive (rest.filter fun other => other.1 ≠ item.1) →
      motive (item :: rest)) : ∀ items, motive items
  | [] => nil
  | item :: rest => cons item rest (induction_byName nil cons _)
termination_by items => items.length
decreasing_by exact Nat.lt_succ_of_le (List.length_filter_le _ _)

/-- No item is lost, and none comes twice. -/
theorem gathered_perm (items : List (Text × α)) : (gathered items).Perm items := by
  induction items using induction_byName with
  | nil => exact .nil
  | cons item rest ih =>
    rw [gathered_cons, List.cons_append]
    refine .cons item ((ih.append_left _).trans ?_)
    have parts := List.filter_append_perm (fun other : Text × α => decide (other.1 = item.1)) rest
    simpa using parts

/-- A run of one name in front of others leaves these together. -/
theorem Together.append {name : Text} {front back : List Text} (run : ∀ x ∈ front, x = name)
    (apart : name ∉ back) (behind : Together back) : Together (front ++ back) := by
  intro first other listed
  obtain ⟨left, right, same, inFront, inBack⟩ := List.sublist_append_iff.mp listed
  cases left with
  | nil =>
    rw [List.nil_append] at same
    exact behind first other (same ▸ inBack)
  | cons a left =>
    -- The name of the run cannot come back, so that all three are in it.
    obtain ⟨rfl, behindFirst⟩ := List.cons.inj same
    have own : first = name := run first (inFront.subset List.mem_cons_self)
    have last : first ∉ right := fun late => apart (own ▸ inBack.subset late)
    have early : other ∈ left := by
      cases left with
      | nil =>
        have all : [other, first] = right := behindFirst
        exact absurd (all ▸ by simp) last
      | cons b left => exact List.mem_cons.mpr (.inl (List.cons.inj behindFirst).1)
    exact (run other (inFront.subset (List.mem_cons_of_mem _ early))).trans own.symm

/-- What is gathered by name has each name in one run. -/
theorem together_gathered (items : List (Text × α)) : Together ((gathered items).map Prod.fst) := by
  induction items using induction_byName with
  | nil => exact fun _ _ listed => nomatch listed
  | cons item rest ih =>
    rw [gathered_cons, List.map_append]
    have run : ∀ x ∈ (item :: rest.filter fun other => other.1 = item.1).map Prod.fst,
        x = item.1 := by
      intro x listed
      obtain ⟨other, within, rfl⟩ := List.mem_map.mp listed
      obtain rfl | later := List.mem_cons.mp within
      · rfl
      · simpa using (List.mem_filter.mp later).2
    refine Together.append run (fun listed => ?_) ih
    · obtain ⟨other, within, same⟩ := List.mem_map.mp listed
      have kept := (gathered_perm _).mem_iff.mp within
      exact absurd same (by simpa using (List.mem_filter.mp kept).2)

/-- Behind its first name, a list of names together is the rest of a run and then the others. -/
theorem Together.split {name : Text} {items : List (Text × α)}
    (together : Together (name :: items.map Prod.fst)) :
    (items.filter fun item => item.1 = name) ++ (items.filter fun item => item.1 ≠ name) =
      items := by
  induction items with
  | nil => rfl
  | cons item rest ih =>
    by_cases same : item.1 = name
    · have fewer : Together (name :: rest.map Prod.fst) := fun first other listed =>
        together first other (listed.trans ((List.sublist_cons_self _ _).cons_cons name))
      rw [List.filter_cons_of_pos (by simpa using same),
        List.filter_cons_of_neg (by simpa using same), List.cons_append, ih fewer]
    · -- The run is over, so that the name does not come back.
      have none (other : Text × α) (later : other ∈ rest) : other.1 ≠ name := fun back => same <|
        together name item.1 (back ▸ ((List.singleton_sublist.mpr
          (List.mem_map_of_mem later)).cons_cons item.1).cons_cons name)
      have all (other : Text × α) (listed : other ∈ item :: rest) : other.1 ≠ name := by
        obtain rfl | later := List.mem_cons.mp listed
        · exact same
        · exact none other later
      rw [List.filter_eq_nil_iff.mpr (by simpa using all), List.nil_append,
        List.filter_eq_self.mpr (by simpa using all)]

/-- Items whose names are together are gathered already. -/
theorem gathered_of_together {items : List (Text × α)} (together : Together (items.map Prod.fst)) :
    gathered items = items := by
  induction items using induction_byName with
  | nil => rfl
  | cons item rest ih =>
    have others : Together ((rest.filter fun other => other.1 ≠ item.1).map Prod.fst) :=
      fun first other listed => together first other
        ((listed.trans ((List.filter_sublist).map Prod.fst)).cons _)
    rw [gathered_cons, ih others, List.cons_append, Together.split together]

/-- Items stay in their order when they are gathered exactly if their names are together. -/
theorem gathered_eq_iff {items : List (Text × α)} :
    gathered items = items ↔ Together (items.map Prod.fst) :=
  ⟨fun same => same ▸ together_gathered items, gathered_of_together⟩

/-- Different things stay in their order when they are gathered exactly if their names are
together. -/
theorem map_gathered_eq_iff {items : List (Text × α)} (distinct : (items.map Prod.snd).Nodup) :
    (gathered items).map Prod.snd = items.map Prod.snd ↔ Together (items.map Prod.fst) := by
  rw [← gathered_eq_iff]
  refine ⟨fun same => ?_, congrArg _⟩
  have perm := gathered_perm items
  refine List.ext_getElem perm.length_eq fun i left right => ?_
  -- A thing has one name only.
  have value : (gathered items)[i].2 = items[i].2 := by
    have both := congrArg (·[i]?) same
    simpa [left, right] using both
  exact List.inj_on_of_nodup_map distinct (perm.mem_iff.mp (List.getElem_mem left))
    (List.getElem_mem right) value

/-- Lists of items are the same if their names are, and what stands under each of these. -/
theorem eq_of_names {first second : List (Text × α)}
    (names : first.map Prod.fst = second.map Prod.fst)
    (each : ∀ name, (first.filter fun item => item.1 = name).map Prod.snd =
      (second.filter fun item => item.1 = name).map Prod.snd) : first = second := by
  induction first generalizing second with
  | nil => exact (List.map_eq_nil_iff.mp names.symm).symm
  | cons item rest ih =>
    obtain ⟨other, others, rfl⟩ : ∃ other others, second = other :: others := by
      cases second with
      | nil => cases names
      | cons other others => exact ⟨other, others, rfl⟩
    obtain ⟨name, behind⟩ := List.cons.inj names
    have own := each item.1
    rw [List.filter_cons_of_pos (by simp), List.filter_cons_of_pos (by simp [name])] at own
    obtain ⟨value, _⟩ := List.cons.inj own
    obtain rfl : item = other := Prod.ext name value
    -- Without the first item, as much is left under each name.
    refine congrArg (item :: ·) (ih behind fun wanted => ?_)
    have all := each wanted
    by_cases same : item.1 = wanted
    · rw [List.filter_cons_of_pos (by simpa using same),
        List.filter_cons_of_pos (by simpa using same)] at all
      exact (List.cons.inj all).2
    · rwa [List.filter_cons_of_neg (by simpa using same),
        List.filter_cons_of_neg (by simpa using same)] at all

end Templates
