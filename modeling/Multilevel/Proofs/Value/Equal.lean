import Multilevel.Proofs.Entries
import Multilevel.Proofs.Number.Alike
import Multilevel.Proofs.Outcome
import Multilevel.Value.Arrays

/-!
# Equality of values

Two values may be compared in either order: as single values, if no key stands twice in a record of
one of them (`Value.equal_symm`), and as arrays (`Value.sameArray_symm`). An array equals itself if
each of its leaves does (`Value.sameArray_self`).
-/
namespace Multilevel.Value

mutual

/-- Whether no key stands twice in any record of a value. -/
def HasDistinctKeys : Value → Prop
  | list items => ItemsHaveDistinctKeys items
  | record fields => (fields.map Prod.fst).Nodup ∧ FieldsHaveDistinctKeys fields
  | _ => True

/-- Whether no key stands twice in any record of the items of a list. -/
def ItemsHaveDistinctKeys : List Value → Prop
  | [] => True
  | item :: rest => HasDistinctKeys item ∧ ItemsHaveDistinctKeys rest

/-- Whether no key stands twice in any record of the fields of a record. -/
def FieldsHaveDistinctKeys : List (String × Value) → Prop
  | [] => True
  | (_, value) :: rest => HasDistinctKeys value ∧ FieldsHaveDistinctKeys rest

end

/-- Lists hold equal values exactly if their items are equal one by one. -/
theorem equalItems_iff {as bs : List Value} :
    equalItems as bs = true ↔ List.Forall₂ (fun a b => equal a b = true) as bs := by
  induction as generalizing bs with
  | nil => cases bs <;> simp [equalItems]
  | cons a rest ih =>
    cases bs with
    | nil => simp [equalItems]
    | cons b rest' => rw [equalItems, Bool.and_eq_true, ih, List.forall₂_cons]

/-- Fields have an equal counterpart exactly if each of them is found with an equal value. -/
theorem equalFields_iff {as bs : List (String × Value)} :
    equalFields as bs = true ↔
      ∀ entry ∈ as, ∃ b, bs.lookup entry.1 = some b ∧ equal entry.2 b = true := by
  induction as with
  | nil => simp [equalFields]
  | cons entry rest ih =>
    obtain ⟨key, a⟩ := entry
    rw [equalFields, Bool.and_eq_true, ih, List.forall_mem_cons]
    refine and_congr_left' ?_
    cases bs.lookup key <;> simp

/-- Which of two numbers is named first does not matter. -/
theorem sameNumber_symm {a b : Value} (same : sameNumber a b = true) : sameNumber b a = true := by
  cases a <;> cases b <;> simp only [sameNumber, integer?, beq_iff_eq] at same ⊢ <;> first
    | exact same
    | exact same.symm
    | exact Number.beq_symm same

/-- Records with equal fields may be compared the other way round, if each of their values may. -/
theorem equalFields_symm {as bs : List (String × Value)} (distinct : (as.map Prod.fst).Nodup)
    (count : as.length = bs.length)
    (values : ∀ entry ∈ as, ∀ b, equal entry.2 b = true → equal b entry.2 = true)
    (equal : equalFields as bs = true) : equalFields bs as = true := by
  rw [equalFields_iff] at equal ⊢
  have keys : (as.map Prod.fst).Perm (bs.map Prod.fst) :=
    Entries.perm_keys_of_found distinct count fun entry mem => (equal entry mem).imp fun _ => And.left
  rintro ⟨key, b⟩ mem
  have listed : key ∈ as.map Prod.fst := keys.mem_iff.mpr (List.mem_map_of_mem mem)
  obtain ⟨a, found⟩ := Entries.exists_lookup_iff.mpr listed
  have inside := Entries.mem_of_lookup found
  obtain ⟨b', found', same⟩ := equal _ inside
  obtain rfl : b = b' := Option.some.inj
    ((Entries.lookup_of_mem (keys.nodup_iff.mp distinct) mem).symm.trans found')
  exact ⟨a, found, values _ inside b same⟩

mutual

/-- Which of two equal values is named first does not matter. -/
theorem equal_symm : ∀ a : Value, a.HasDistinctKeys → ∀ b, equal a b = true → equal b a = true
  | null, _, b, same => by
    cases b <;> first | rfl | cases same
  | bool _, _, b, same => by
    cases b <;> simp only [equal] at same ⊢ <;> exact sameNumber_symm same
  | int _, _, b, same => by
    cases b <;> simp only [equal] at same ⊢ <;> exact sameNumber_symm same
  | float _, _, b, same => by
    cases b <;> simp only [equal] at same ⊢ <;> exact sameNumber_symm same
  | text _, _, b, same => by
    cases b with
    | text => exact beq_iff_eq.mpr (eq_of_beq same).symm
    | _ => cases same
  | list items, keyed, b, same => by
    cases b with
    | list others =>
      have each := forall₂_and_mem (equalItems_iff.mp same)
      exact equalItems_iff.mpr (List.Forall₂.flip (each.imp fun item other ⟨mem, equal⟩ =>
        equal_symm_items items keyed item mem other equal))
    | _ => cases same
  | record fields, keyed, b, same => by
    cases b with
    | record others =>
      obtain ⟨count, equal⟩ := Bool.and_eq_true_iff.mp same
      have count := eq_of_beq count
      refine Bool.and_eq_true_iff.mpr ⟨beq_iff_eq.mpr count.symm, ?_⟩
      exact equalFields_symm keyed.1 count (equal_symm_fields fields keyed.2) equal
    | _ => cases same
  | function .., _, b, same => by
    cases b <;> cases same

/-- So it is for the items of a list. -/
theorem equal_symm_items : ∀ items : List Value, ItemsHaveDistinctKeys items →
    ∀ item ∈ items, ∀ b, equal item b = true → equal b item = true
  | [], _, _, mem => absurd mem List.not_mem_nil
  | first :: rest, keyed, item, mem => by
    rcases List.mem_cons.mp mem with here | later
    · exact here ▸ equal_symm first keyed.1
    · exact equal_symm_items rest keyed.2 item later

/-- So it is for the values of a record. -/
theorem equal_symm_fields : ∀ fields : List (String × Value), FieldsHaveDistinctKeys fields →
    ∀ entry ∈ fields, ∀ b, equal entry.2 b = true → equal b entry.2 = true
  | [], _, _, mem => absurd mem List.not_mem_nil
  | (key, value) :: rest, keyed, entry, mem => by
    rcases List.mem_cons.mp mem with here | later
    · exact here ▸ equal_symm value keyed.1
    · exact equal_symm_fields rest keyed.2 entry later

end

/-- Lists of equal values may be compared the other way round. -/
theorem equalItems_symm {as bs : List Value} (keyed : ∀ a ∈ as, a.HasDistinctKeys)
    (same : equalItems as bs = true) : equalItems bs as = true :=
  equalItems_iff.mpr (List.Forall₂.flip ((forall₂_and_mem (equalItems_iff.mp same)).imp
    fun a b ⟨mem, equal⟩ => equal_symm a (keyed a mem) b equal))

mutual

/-- The leaves of a value without repeated keys have none. -/
theorem keyed_of_cells : ∀ (value : Value) {c : Cells}, value.HasDistinctKeys →
    value.cells = .ok c → ∀ leaf ∈ c.leaves, leaf.HasDistinctKeys
  | list items, c, keyed, made => by
    simp only [cells, bind_eq_ok] at made
    obtain ⟨parts, inside, made⟩ := made
    have each := keyed_of_cellsOfItems items keyed inside
    cases parts with
    | nil =>
      obtain rfl := Except.ok.inj made
      simp
    | cons first rest =>
      dsimp only at made
      split at made
      · obtain rfl := Except.ok.inj made
        intro leaf mem
        obtain ⟨part, listed, own⟩ := List.mem_flatMap.mp mem
        exact each part listed leaf own
      · cases made
  | null, _, keyed, made | bool _, _, keyed, made | int _, _, keyed, made
  | float _, _, keyed, made | text _, _, keyed, made | record _, _, keyed, made
  | function .., _, keyed, made => by
    obtain rfl := Except.ok.inj made
    intro leaf mem
    exact List.mem_singleton.mp mem ▸ keyed

/-- So do those of the items of a list. -/
theorem keyed_of_cellsOfItems : ∀ (items : List Value) {parts : List Cells},
    ItemsHaveDistinctKeys items → cellsOfItems items = .ok parts →
      ∀ part ∈ parts, ∀ leaf ∈ part.leaves, leaf.HasDistinctKeys
  | [], parts, _, made => by
    obtain rfl := Except.ok.inj made
    simp
  | item :: rest, parts, keyed, made => by
    simp only [cellsOfItems, bind_eq_ok, pure_eq_ok] at made
    obtain ⟨first, own, others, later, rfl⟩ := made
    rw [List.forall_mem_cons]
    exact ⟨keyed_of_cells item keyed.1 own, keyed_of_cellsOfItems rest keyed.2 later⟩

end

/-- A leaf that is stored beside others becomes a text or the number nearest to an integer, or stays
as it is. -/
theorem stored_cases (kind : LeafKind) (leaf : Value) :
    (∃ s, stored kind leaf = text s) ∨ (∃ n, stored kind leaf = float (Number.ofInt n)) ∨
      stored kind leaf = leaf := by
  unfold stored
  split
  · exact .inl ⟨_, rfl⟩
  · exact .inl ⟨_, rfl⟩
  · exact .inl ⟨_, rfl⟩
  · split
    · exact .inr (.inl ⟨_, rfl⟩)
    · exact .inr (.inr rfl)
  · exact .inr (.inr rfl)

/-- Storing a leaf beside others repeats no key. -/
theorem HasDistinctKeys.stored {leaf : Value} (keyed : leaf.HasDistinctKeys) (kind : LeafKind) :
    (stored kind leaf).HasDistinctKeys := by
  rcases stored_cases kind leaf with ⟨s, made⟩ | ⟨n, made⟩ | made
  · exact made ▸ trivial
  · exact made ▸ trivial
  · rw [made]
    exact keyed

/-- Arrays may be compared the other way round. -/
theorem sameArray_symm {a b : Value} (keyed : a.HasDistinctKeys)
    (same : a.sameArray b = .ok true) : b.sameArray a = .ok true := by
  simp only [sameArray, bind_eq_ok, pure_eq_ok, Bool.and_eq_true, beq_iff_eq] at same ⊢
  obtain ⟨x, left, y, right, shape, leaves⟩ := same
  refine ⟨y, right, x, left, shape.symm, equalItems_symm ?_ leaves⟩
  intro leaf mem
  obtain ⟨own, inside, rfl⟩ := List.mem_map.mp mem
  exact (keyed_of_cells a keyed left own inside).stored _

/-- An array equals itself if each of its leaves does. -/
theorem sameArray_self {a : Value} {c : Cells} (made : a.cells = .ok c)
    (leaves : ∀ leaf ∈ c.leaves, equal leaf leaf = true) : a.sameArray a = .ok true := by
  simp only [sameArray, bind_eq_ok, pure_eq_ok, Bool.and_eq_true, beq_iff_eq]
  refine ⟨c, made, c, made, rfl, equalItems_iff.mpr (List.forall₂_same.mpr fun other mem => ?_)⟩
  obtain ⟨leaf, inside, rfl⟩ := List.mem_map.mp mem
  rcases stored_cases _ leaf with ⟨s, made⟩ | ⟨n, made⟩ | made
  · rw [made]
    exact beq_self_eq_true s
  · rw [made]
    show (Number.ofInt n == Number.ofInt n) = true
    rw [Number.beq_self, Number.isNaN_ofInt, Bool.not_false]
  · rw [made]
    exact leaves leaf inside

end Multilevel.Value
