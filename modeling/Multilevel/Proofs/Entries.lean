import Mathlib
import Multilevel.Entries

/-!
# Distinct names and named entries

Erasing later repetitions leaves each element once, in the order of first appearance. Putting
entries one after the other into an empty list leaves one entry per name: the names in the order
of first appearance (`keys_putAll`), each with the entry that came last (`lookup_putAll`).

Lists of entries are related that have the same names in the same order and related entries under
each. Looking a name up in them, and putting their entries into empty lists, keeps them related.
-/
namespace Multilevel

section Distinct

variable {α : Type} [DecidableEq α]

/-- No element is left twice. -/
theorem nodup_eraseDups (as : List α) : as.eraseDups.Nodup := by
  match as with
  | [] => simp
  | a :: rest =>
    have shorter : (rest.filter fun b => !b == a).length < rest.length + 1 :=
      Nat.lt_succ_of_le (List.length_filter_le _ _)
    rw [List.eraseDups_cons, List.nodup_cons]
    refine ⟨?_, nodup_eraseDups _⟩
    simp
termination_by as.length

/-- Nothing is erased from a list without repetitions. -/
theorem eraseDups_of_nodup {as : List α} (distinct : as.Nodup) : as.eraseDups = as := by
  induction as with
  | nil => rfl
  | cons a rest ih =>
    rw [List.nodup_cons] at distinct
    have kept : (rest.filter fun b => !b == a) = rest := by
      rw [List.filter_eq_self]
      intro b mem
      have differs : b ≠ a := fun same => distinct.1 (same ▸ mem)
      simpa using differs
    rw [List.eraseDups_cons, kept, ih distinct.2]

/-- Erasing leaves a part of the list. -/
theorem eraseDups_sublist (as : List α) : as.eraseDups.Sublist as := by
  match as with
  | [] => simp
  | a :: rest =>
    have shorter : (rest.filter fun b => !b == a).length < rest.length + 1 :=
      Nat.lt_succ_of_le (List.length_filter_le _ _)
    rw [List.eraseDups_cons]
    exact ((eraseDups_sublist _).trans List.filter_sublist).cons_cons a
termination_by as.length

/-- A list has as many distinct elements as places exactly if it has no repetitions. -/
theorem length_eraseDups_eq_iff {as : List α} : as.eraseDups.length = as.length ↔ as.Nodup := by
  constructor
  · intro full
    have same := (eraseDups_sublist as).eq_of_length full
    exact same ▸ nodup_eraseDups as
  · intro distinct
    rw [eraseDups_of_nodup distinct]

end Distinct

namespace Entries

variable {α : Type}

/-- An entry is found under a name exactly if there is one. -/
theorem exists_lookup_iff {entries : List (String × α)} {name : String} :
    (∃ entry, entries.lookup name = some entry) ↔ name ∈ entries.map Prod.fst := by
  induction entries with
  | nil => simp
  | cons first rest ih =>
    obtain ⟨other, entry⟩ := first
    rw [List.lookup_cons, List.map_cons, List.mem_cons]
    cases same : name == other
    · have differs : name ≠ other := by simpa using same
      simpa [differs] using ih
    · simp [eq_of_beq same]

/-- Of entries under distinct names, each is found under its own. -/
theorem lookup_of_mem {entries : List (String × α)} (distinct : (entries.map Prod.fst).Nodup)
    {name : String} {entry : α} (mem : (name, entry) ∈ entries) :
    entries.lookup name = some entry := by
  induction entries with
  | nil => cases mem
  | cons first rest ih =>
    obtain ⟨other, old⟩ := first
    rw [List.map_cons, List.nodup_cons] at distinct
    rcases List.mem_cons.mp mem with here | later
    · obtain ⟨rfl, rfl⟩ := Prod.mk.inj here
      simp
    · have differs : (name == other) = false := by
        rw [beq_eq_false_iff_ne]
        intro same
        exact distinct.1 (List.mem_map.mpr ⟨(name, entry), later, same⟩)
      rw [List.lookup_cons, differs]
      exact ih distinct.2 later

/-- Entries with the same names and the same entry under each are the same. -/
theorem eq_of_lookup {x y : List (String × α)}
    (names : x.map Prod.fst = y.map Prod.fst) (distinct : (x.map Prod.fst).Nodup)
    (same : ∀ name, x.lookup name = y.lookup name) : x = y := by
  refine List.ext_getElem (by simpa using congrArg List.length names) fun i first second => ?_
  have key : x[i].1 = y[i].1 := by
    simpa [first, second] using congrArg (fun names => names[i]?) names
  have left : x.lookup x[i].1 = some x[i].2 := lookup_of_mem distinct (List.getElem_mem first)
  have right : y.lookup y[i].1 = some y[i].2 :=
    lookup_of_mem (names ▸ distinct) (List.getElem_mem second)
  rw [← key, ← same, left] at right
  exact Prod.ext key (Option.some.inj right)

/-- What is found under a name is one of the entries. -/
theorem mem_of_lookup {entries : List (String × α)} {name : String} {entry : α}
    (found : entries.lookup name = some entry) : (name, entry) ∈ entries := by
  obtain ⟨before, after, split, _⟩ := List.lookup_eq_some_iff.mp found
  rw [split]
  exact List.mem_append_right _ List.mem_cons_self

/-- As many different names as there are entries on the other side are all of its names, if each of
them is found there. -/
theorem perm_keys_of_found {β : Type} {as : List (String × α)} {bs : List (String × β)}
    (distinct : (as.map Prod.fst).Nodup) (count : as.length = bs.length)
    (found : ∀ entry ∈ as, ∃ b, bs.lookup entry.1 = some b) :
    (as.map Prod.fst).Perm (bs.map Prod.fst) := by
  have within : as.map Prod.fst ⊆ bs.map Prod.fst := by
    intro key mem
    obtain ⟨entry, inside, rfl⟩ := List.mem_map.mp mem
    exact exists_lookup_iff.mp (found entry inside)
  exact (List.subperm_of_subset distinct within).perm_of_length_le (by simp [count])

/-- Where as many entries are all found, each with a related one under its name, looking a name up on
both sides gives related entries or none. -/
theorem rel_lookup_of_found {β : Type} {related : α → β → Prop} {as : List (String × α)}
    {bs : List (String × β)} (distinct : (as.map Prod.fst).Nodup) (count : as.length = bs.length)
    (found : ∀ entry ∈ as, ∃ b, bs.lookup entry.1 = some b ∧ related entry.2 b) (name : String) :
    Option.Rel related (as.lookup name) (bs.lookup name) := by
  have keys := perm_keys_of_found distinct count fun entry mem =>
    (found entry mem).imp fun _ => And.left
  cases own : as.lookup name with
  | some a =>
    obtain ⟨b, there, same⟩ := found _ (mem_of_lookup own)
    exact there ▸ .some same
  | none =>
    cases other : bs.lookup name with
    | none => exact .none
    | some b =>
      obtain ⟨a, here⟩ := exists_lookup_iff.mpr
        (keys.mem_iff.mpr (exists_lookup_iff.mp ⟨b, other⟩))
      cases own.symm.trans here

/-- Entries under distinct names are found in whatever order. -/
theorem lookup_reverse {entries : List (String × α)} (distinct : (entries.map Prod.fst).Nodup)
    (name : String) : entries.reverse.lookup name = entries.lookup name := by
  have backwards : (entries.reverse.map Prod.fst).Nodup := by
    rw [List.map_reverse, List.nodup_reverse]
    exact distinct
  cases found : entries.lookup name with
  | none =>
    rw [List.lookup_eq_none_iff] at found ⊢
    exact fun entry mem => found entry (List.mem_reverse.mp mem)
  | some entry => exact lookup_of_mem backwards (List.mem_reverse.mpr (mem_of_lookup found))

/-- An entry under a name that no other has is found from the end. -/
theorem lookup_reverse_of_count {entries : List (String × α)} {name : String} {entry : α}
    (once : (entries.map Prod.fst).count name = 1) (mem : (name, entry) ∈ entries) :
    entries.reverse.lookup name = some entry := by
  obtain ⟨before, after, rfl⟩ := List.append_of_mem mem
  have fresh : name ∉ after.map Prod.fst := by
    rw [List.map_append, List.count_append, List.map_cons, List.count_cons_self] at once
    exact List.count_eq_zero.mp (by omega)
  have none : after.reverse.lookup name = none := by
    rw [List.lookup_eq_none_iff]
    intro other later
    rw [bne_iff_ne]
    exact fun same => fresh (List.mem_map.mpr ⟨other, List.mem_reverse.mp later, same.symm⟩)
  rw [List.reverse_append, List.reverse_cons, List.lookup_append, List.lookup_append, none]
  simp

/-- Entries are found under the names that are left. -/
theorem lookup_without (entries : List (String × α)) (names : List String) (name : String) :
    (without entries names).lookup name = if name ∈ names then none else entries.lookup name := by
  induction entries with
  | nil => simp [without]
  | cons first rest ih =>
    obtain ⟨other, entry⟩ := first
    by_cases gone : other ∈ names
    · have left : without ((other, entry) :: rest) names = without rest names := by
        rw [without, List.filter_cons_of_neg (by simpa using gone), ← without]
      rw [left, ih, List.lookup_cons]
      split
      · rfl
      · rename_i there
        have differs : (name == other) = false := by
          rw [beq_eq_false_iff_ne]
          exact fun same => there (same ▸ gone)
        rw [differs]
    · have kept : without ((other, entry) :: rest) names = (other, entry) :: without rest names := by
        rw [without, List.filter_cons_of_pos (by simpa using gone), ← without]
      rw [kept, List.lookup_cons, List.lookup_cons, ih]
      cases same : name == other
      · rfl
      · obtain rfl := eq_of_beq same
        exact (if_neg gone).symm

/-- The names after putting an entry under one of them. -/
theorem keys_put (entries : List (String × α)) (name : String) (entry : α) :
    (put entries name entry).map Prod.fst =
      if name ∈ entries.map Prod.fst then entries.map Prod.fst
      else entries.map Prod.fst ++ [name] := by
  induction entries with
  | nil => simp [put]
  | cons first rest ih =>
    obtain ⟨other, old⟩ := first
    rw [put]
    by_cases same : other = name
    · simp [same]
    · have differs : name ≠ other := fun h => same h.symm
      simp only [same, ↓reduceIte, List.map_cons, ih, List.mem_cons, differs, false_or]
      split <;> simp

/-- Putting an entry keeps names distinct. -/
theorem nodup_keys_put {entries : List (String × α)} (distinct : (entries.map Prod.fst).Nodup)
    (name : String) (entry : α) : ((put entries name entry).map Prod.fst).Nodup := by
  rw [keys_put]
  split
  · exact distinct
  · rename_i fresh
    refine List.nodup_append.mpr ⟨distinct, List.nodup_singleton name, ?_⟩
    intro a mem b last same
    exact fresh (List.mem_singleton.mp last ▸ same ▸ mem)

/-- The names after putting entries one after the other beside others. -/
theorem keys_putAll_append (entries more : List (String × α))
    (distinct : (entries.map Prod.fst).Nodup) :
    (putAll entries more).map Prod.fst =
      (entries.map Prod.fst ++ more.map Prod.fst).eraseDups := by
  induction more generalizing entries with
  | nil => simp [putAll, eraseDups_of_nodup distinct]
  | cons first more ih =>
    obtain ⟨name, entry⟩ := first
    have step : putAll entries ((name, entry) :: more) = putAll (put entries name entry) more := rfl
    rw [step]
    by_cases taken : name ∈ entries.map Prod.fst
    · have keys : (put entries name entry).map Prod.fst = entries.map Prod.fst := by
        rw [keys_put, if_pos taken]
      have dropped : (name :: more.map Prod.fst).removeAll (entries.map Prod.fst) =
          (more.map Prod.fst).removeAll (entries.map Prod.fst) := by
        simp only [List.removeAll, List.filter_cons, List.elem_eq_mem, taken, decide_true,
          Bool.not_true, Bool.false_eq_true, ↓reduceIte]
      rw [ih _ (keys ▸ distinct), keys, List.eraseDups_append, List.eraseDups_append,
        List.map_cons, dropped]
    · have keys : (put entries name entry).map Prod.fst = entries.map Prod.fst ++ [name] := by
        rw [keys_put, if_neg taken]
      rw [ih _ (nodup_keys_put distinct name entry), keys]
      simp

/-- Each name is left once, in the order of first appearance. -/
theorem keys_putAll (more : List (String × α)) :
    (putAll [] more).map Prod.fst = (more.map Prod.fst).eraseDups := by
  simpa using keys_putAll_append [] more (by simp)

/-- Of the entries put under a name, the last one is found. -/
theorem lookup_putAll_append (entries more : List (String × α)) (name : String) :
    (putAll entries more).lookup name =
      (more.reverse.lookup name).or (entries.lookup name) := by
  induction more generalizing entries with
  | nil => simp [putAll]
  | cons first more ih =>
    obtain ⟨other, entry⟩ := first
    have step : putAll entries ((other, entry) :: more) = putAll (put entries other entry) more :=
      rfl
    rw [step, ih, List.reverse_cons, List.lookup_append, Option.or_assoc]
    congr 1
    by_cases same : name = other
    · subst same
      simp [lookup_put_self]
    · have unlike : (name == other) = false := by simpa using same
      simp [lookup_put_of_ne entries entry same, List.lookup_cons, unlike]

/-- Of the entries put under a name into an empty list, the last one is found. -/
theorem lookup_putAll (more : List (String × α)) (name : String) :
    (putAll [] more).lookup name = more.reverse.lookup name := by
  simp [lookup_putAll_append]

/-- Entries put into an empty list are among those given. -/
theorem mem_of_mem_putAll {more : List (String × α)} {entry : String × α}
    (mem : entry ∈ putAll [] more) : entry ∈ more := by
  have distinct : ((putAll [] more).map Prod.fst).Nodup := by
    rw [keys_putAll]
    exact nodup_eraseDups _
  have found := lookup_of_mem distinct mem
  rw [lookup_putAll] at found
  exact List.mem_reverse.mp (mem_of_lookup found)

/-- Putting entries list by list leaves the same entries under each name. -/
theorem lookup_putAll_flatMap (lists : List (List (String × α))) (name : String) :
    (putAll [] (lists.flatMap (putAll []))).lookup name = lists.flatten.reverse.lookup name := by
  rw [lookup_putAll]
  induction lists with
  | nil => rfl
  | cons first rest ih =>
    have distinct : ((putAll [] first).map Prod.fst).Nodup := by
      rw [keys_putAll]
      exact nodup_eraseDups _
    rw [List.flatMap_cons, List.reverse_append, List.lookup_append, ih, List.flatten_cons,
      List.reverse_append, List.lookup_append, lookup_reverse distinct, lookup_putAll]

/-- The names after putting entries beside others. -/
theorem mem_keys_putAll {entries more : List (String × α)} {name : String} :
    name ∈ (putAll entries more).map Prod.fst ↔
      name ∈ entries.map Prod.fst ∨ name ∈ more.map Prod.fst := by
  have backwards : name ∈ more.reverse.map Prod.fst ↔ name ∈ more.map Prod.fst := by
    rw [List.map_reverse, List.mem_reverse]
  rw [← exists_lookup_iff, ← exists_lookup_iff, ← backwards, ← exists_lookup_iff,
    lookup_putAll_append]
  cases more.reverse.lookup name <;> simp

/-- An entry under a name that is not among the first entries leaves these as they are. -/
theorem put_append {entries : List (String × α)} {name : String} (rest : List (String × α))
    (entry : α) (free : name ∉ entries.map Prod.fst) :
    put (entries ++ rest) name entry = entries ++ put rest name entry := by
  induction entries with
  | nil => rfl
  | cons first others ih =>
    obtain ⟨other, old⟩ := first
    rw [List.map_cons, List.mem_cons, not_or] at free
    rw [List.cons_append, put, if_neg fun same => free.1 same.symm, ih free.2, List.cons_append]

/-- An entry under a new name comes last. -/
theorem put_of_not_mem {entries : List (String × α)} {name : String} (entry : α)
    (free : name ∉ entries.map Prod.fst) : put entries name entry = entries ++ [(name, entry)] := by
  simpa [put] using put_append [] entry free

/-- Entries under other names leave the first entries as they are. -/
theorem putAll_append {entries more : List (String × α)} (rest : List (String × α))
    (apart : ∀ name ∈ more.map Prod.fst, name ∉ entries.map Prod.fst) :
    putAll (entries ++ rest) more = entries ++ putAll rest more := by
  induction more generalizing rest with
  | nil => rfl
  | cons first more ih =>
    obtain ⟨name, entry⟩ := first
    obtain ⟨free, others⟩ := List.forall_mem_cons.mp apart
    have step (all : List (String × α)) :
        putAll all ((name, entry) :: more) = putAll (put all name entry) more := rfl
    rw [step, step, put_append rest entry free, ih _ others]

/-- Entries under distinct names stay as they are, one after the other. -/
theorem putAll_append_of_nodup {entries more : List (String × α)}
    (distinct : ((entries ++ more).map Prod.fst).Nodup) :
    putAll entries more = entries ++ more := by
  induction more generalizing entries with
  | nil => simp [putAll]
  | cons first more ih =>
    obtain ⟨name, entry⟩ := first
    have free : name ∉ entries.map Prod.fst := by
      rw [List.map_append, List.nodup_append] at distinct
      intro mem
      exact distinct.2.2 name mem name (by simp) rfl
    have step : putAll entries ((name, entry) :: more) = putAll (put entries name entry) more := rfl
    rw [step, put_of_not_mem entry free, ih (by simpa using distinct)]
    simp

/-- Entries under distinct names stay as they are. -/
theorem putAll_of_nodup {more : List (String × α)} (distinct : (more.map Prod.fst).Nodup) :
    putAll [] more = more := putAll_append_of_nodup (by simpa using distinct)

/-- Lists of entries under distinct names stay as they are. -/
theorem putAll_flatMap_of_nodup {lists : List (List (String × α))}
    (distinct : (lists.flatten.map Prod.fst).Nodup) :
    putAll [] (lists.flatMap (putAll [])) = lists.flatten := by
  have each : lists.flatMap (putAll []) = lists.flatten := by
    rw [List.flatMap_def, List.map_congr_left (g := id), List.map_id]
    intro own mem
    exact putAll_of_nodup (((List.sublist_flatten_of_mem mem).map _).nodup distinct)
  rw [each, putAll_of_nodup distinct]

/-- The names after one entry was changed. -/
theorem keys_adjust (entries : List (String × α)) (changed : String) (f : α → α) :
    (adjust entries changed f).map Prod.fst = entries.map Prod.fst := by
  simp [adjust, Function.comp_def]

/-- The entry of a name after one entry was changed. -/
theorem lookup_adjust (entries : List (String × α)) (changed : String) (f : α → α)
    (name : String) : (adjust entries changed f).lookup name =
      (entries.lookup name).map fun entry => if name = changed then f entry else entry := by
  induction entries with
  | nil => rfl
  | cons first rest ih =>
    obtain ⟨other, entry⟩ := first
    rw [adjust] at ih ⊢
    rw [List.map_cons, List.lookup_cons, List.lookup_cons]
    cases same : name == other
    · exact ih
    · simp [eq_of_beq same]

/-- Related lists of entries stand under the same names. -/
theorem keys_of_forall₂ {β : Type} (related : String → α → β → Prop)
    {given : List (String × α)} {made : List (String × β)}
    (all : List.Forall₂ (fun a b => b.1 = a.1 ∧ related a.1 a.2 b.2) given made) :
    made.map Prod.fst = given.map Prod.fst := by
  induction all with
  | nil => rfl
  | cons step _ ih => rw [List.map_cons, List.map_cons, step.1, ih]

/-- Related lists of entries under the same names lead from a name to related entries. -/
theorem lookup_of_forall₂ {β : Type} (related : String → α → β → Prop)
    {given : List (String × α)} {made : List (String × β)}
    (all : List.Forall₂ (fun a b => b.1 = a.1 ∧ related a.1 a.2 b.2) given made) {name : String}
    {result : β} (found : made.lookup name = some result) :
    ∃ source, given.lookup name = some source ∧ related name source result := by
  induction all with
  | nil => simp at found
  | @cons first second _ _ step _ ih =>
    obtain ⟨other, source⟩ := first
    obtain ⟨_, made⟩ := second
    obtain ⟨rfl, taken⟩ := step
    rw [List.lookup_cons] at found ⊢
    split at found
    · rename_i same
      obtain rfl := Option.some.inj found
      obtain rfl := eq_of_beq same
      exact ⟨source, by simp, taken⟩
    · rename_i differs
      simpa [differs] using ih found

section Related

variable {β : Type} {related : α → β → Prop} {x : List (String × α)} {y : List (String × β)}

/-- Whether two lists hold related entries under the same names in the same order. -/
def Related {κ : Type} (related : α → β → Prop) (x : List (κ × α)) (y : List (κ × β)) : Prop :=
  List.Forall₂ (fun given other => other.1 = given.1 ∧ related given.2 other.2) x y

/-- Related lists have the same names. -/
theorem Related.keys {κ : Type} {x : List (κ × α)} {y : List (κ × β)} (all : Related related x y) :
    y.map Prod.fst = x.map Prod.fst := by
  unfold Related at all
  induction all with
  | nil => rfl
  | cons first _ ih => rw [List.map_cons, List.map_cons, first.1, ih]

/-- A weaker relation of the entries. -/
theorem Related.imp {κ : Type} {x : List (κ × α)} {y : List (κ × β)} {weaker : α → β → Prop}
    (all : Related related x y) (weaken : ∀ u v, related u v → weaker u v) :
    Related weaker x y :=
  List.Forall₂.imp (fun _ _ step => ⟨step.1, weaken _ _ step.2⟩) all

/-- Which of two lists is named first does not matter to a relation to which it does not. -/
theorem Related.symm {related : α → α → Prop} {x y : List (String × α)} (all : Related related x y)
    (symmetric : ∀ u v, related u v → related v u) : Related related y x :=
  List.Forall₂.flip (List.Forall₂.imp (fun _ _ step => ⟨step.1.symm, symmetric _ _ step.2⟩) all)

/-- Lists of entries that are compared name by name and entry by entry. -/
theorem related_iff (same : α → β → Bool) :
    Related (fun u v => same u v = true) x y ↔
      x.map Prod.fst = y.map Prod.fst ∧
        ((x.zip y).all fun entry => same entry.1.2 entry.2.2) = true := by
  unfold Related
  induction x generalizing y with
  | nil => cases y <;> simp
  | cons first rest ih =>
    cases y with
    | nil => simp
    | cons first' rest' =>
      rw [List.forall₂_cons, ih, List.map_cons, List.map_cons, List.cons.injEq, List.zip_cons_cons,
        List.all_cons, Bool.and_eq_true]
      constructor
      · rintro ⟨⟨name, agree⟩, names, others⟩
        exact ⟨⟨name.symm, names⟩, agree, others⟩
      · rintro ⟨⟨name, names⟩, agree, others⟩
        exact ⟨⟨name.symm, agree⟩, names, others⟩

/-- Each entry has a related one under its name. -/
theorem Related.exists_of_mem (all : Related related x y) {name : String} {u : α}
    (mem : (name, u) ∈ x) : ∃ v, (name, v) ∈ y ∧ related u v := by
  unfold Related at all
  induction all with
  | nil => cases mem
  | @cons first second _ _ step _ ih =>
    rcases List.mem_cons.mp mem with rfl | later
    · exact ⟨second.2, List.mem_cons.mpr (.inl (Prod.ext step.1.symm rfl)), step.2⟩
    · obtain ⟨v, there, own⟩ := ih later
      exact ⟨v, List.mem_cons_of_mem _ there, own⟩

/-- Under each name there are related entries, or none. -/
theorem Related.lookup (all : Related related x y) (name : String) :
    Option.Rel related (x.lookup name) (y.lookup name) := by
  unfold Related at all
  induction all with
  | nil => exact .none
  | @cons first second _ _ step _ ih =>
    obtain ⟨_, entry⟩ := first
    obtain ⟨other, entry'⟩ := second
    obtain ⟨rfl, own⟩ := step
    rw [List.lookup_cons, List.lookup_cons]
    cases name == other with
    | true => exact .some own
    | false => exact ih

section Named

variable {holds : String × α → String × β → Prop}

/-- What holds of entries of the same names holds after one more is put under a name. -/
theorem forall₂_put (named : ∀ p q, holds p q → q.1 = p.1) (all : List.Forall₂ holds x y)
    {name : String} {entry : α} {entry' : β} (own : holds (name, entry) (name, entry')) :
    List.Forall₂ holds (put x name entry) (put y name entry') := by
  induction all with
  | nil => exact .cons own .nil
  | @cons first second _ _ step rest ih =>
    obtain ⟨_, old⟩ := first
    obtain ⟨other, old'⟩ := second
    obtain rfl : other = _ := named _ _ step
    rw [Entries.put, Entries.put]
    split
    · exact .cons own rest
    · exact .cons step ih

/-- So it does of entries that are put into empty lists one after the other. -/
theorem forall₂_putAll (named : ∀ p q, holds p q → q.1 = p.1) (all : List.Forall₂ holds x y) :
    List.Forall₂ holds (putAll [] x) (putAll [] y) := by
  have step : ∀ {entries : List (String × α)} {entries' : List (String × β)},
      List.Forall₂ holds entries entries' →
        List.Forall₂ holds (Entries.putAll entries x) (Entries.putAll entries' y) := by
    induction all with
    | nil => exact id
    | @cons first second _ _ own _ ih =>
      obtain ⟨_, entry⟩ := first
      obtain ⟨name, entry'⟩ := second
      obtain rfl : name = _ := named _ _ own
      exact fun before => ih (forall₂_put named before own)
  exact step .nil

end Named

/-- Related entries that are put into empty lists one after the other. -/
theorem Related.putAll (all : Related related x y) :
    Related related (putAll [] x) (putAll [] y) :=
  forall₂_putAll (fun _ _ => And.left) all

end Related

end Entries

end Multilevel
