import Mathlib
import Multilevel.Proofs.Value.Tokens
import Multilevel.Value.Canonical

/-!
# Canonical text identifies values

The keys of a record stand in some order that carries no meaning. Two values agree if they are the
same once the keys of all their records are put in order; agreeing values have one canonical text
(`Value.canonical_congr`).

Two data values are the same up to the order of keys if they are made of the same parts, whatever
the order of the keys in their records; floating-point numbers count as what is displayed of them
(`Value.Same`). Canonical text tells where it ends, so that a list or a record falls apart in one
way (`Value.IsData.separable`). Main statement: data values have one canonical text exactly if they
are the same (`Value.canonical_eq_iff`).
-/
namespace Multilevel.Value

mutual

/-- A value with the keys of all its records in ascending order. -/
def ordered : Value → Value
  | list items => list (orderedItems items)
  | record fields => record ((orderedFields fields).mergeSort fun a b => a.1 ≤ b.1)
  | value => value

/-- The values of a list, each with its keys in order. -/
def orderedItems : List Value → List Value
  | [] => []
  | item :: rest => ordered item :: orderedItems rest

/-- The fields of a record as they stand, each value with its keys in order. -/
def orderedFields : List (String × Value) → List (String × Value)
  | [] => []
  | (key, item) :: rest => (key, ordered item) :: orderedFields rest

end

/-- Whether two values differ in the order of keys alone. -/
def Agrees (a b : Value) : Prop := a.ordered = b.ordered

/-- Every value agrees with itself. -/
theorem Agrees.refl (a : Value) : Agrees a a := rfl

/-- Agreement goes both ways. -/
theorem Agrees.symm {a b : Value} (same : Agrees a b) : Agrees b a := Eq.symm same

/-- Values that agree with one value agree. -/
theorem Agrees.trans {a b c : Value} (first : Agrees a b) (second : Agrees b c) : Agrees a c :=
  Eq.trans first second

/-- The keys of a record are compared by a total order. -/
theorem key_total {α : Type} (a b : String × α) :
    (decide (a.1 ≤ b.1) || decide (b.1 ≤ a.1)) = true := by
  simpa using le_total a.1 b.1

/-- The order of the keys of a record is transitive. -/
theorem key_trans {α : Type} (a b c : String × α) (first : decide (a.1 ≤ b.1) = true)
    (second : decide (b.1 ≤ c.1) = true) : decide (a.1 ≤ c.1) = true := by
  simp only [decide_eq_true_eq] at first second ⊢
  exact le_trans first second

/-- Canonical texts of fields belong to the keys of the fields. -/
theorem canonicalFields_eq_map (fields : List (String × Value)) :
    canonicalFields fields = fields.map fun field => (field.1, canonical field.2) := by
  induction fields with
  | nil => rfl
  | cons field rest ih => rw [canonicalFields, ih, List.map_cons]

/-- Fields that are written after they were sorted are sorted. -/
theorem canonicalFields_mergeSort (fields : List (String × Value)) :
    canonicalFields (fields.mergeSort fun a b => a.1 ≤ b.1) =
      (canonicalFields fields).mergeSort fun a b => a.1 ≤ b.1 := by
  rw [canonicalFields_eq_map, canonicalFields_eq_map]
  exact List.map_mergeSort fun _ _ _ _ => rfl

mutual

/-- The order of keys does not matter to canonical text. -/
theorem canonical_ordered : ∀ value : Value, canonical (ordered value) = canonical value
  | list items => by rw [ordered, canonical, canonical, canonicalItems_ordered items]
  | record fields => by
    have sorted := List.pairwise_mergeSort key_trans key_total (canonicalFields fields)
    rw [ordered, canonical, canonical, canonicalFields_mergeSort, canonicalFields_ordered fields,
      List.mergeSort_of_pairwise sorted]
  | null => rfl
  | bool _ => rfl
  | int _ => rfl
  | float _ => rfl
  | text _ => rfl
  | function .. => rfl

/-- The order of keys does not matter to the texts of the values of a list. -/
theorem canonicalItems_ordered :
    ∀ items : List Value, canonicalItems (orderedItems items) = canonicalItems items
  | [] => rfl
  | item :: rest => by
    rw [orderedItems, canonicalItems, canonicalItems, canonical_ordered item,
      canonicalItems_ordered rest]

/-- The order of keys does not matter to the texts of the values of fields. -/
theorem canonicalFields_ordered : ∀ fields : List (String × Value),
    canonicalFields (orderedFields fields) = canonicalFields fields
  | [] => rfl
  | (key, item) :: rest => by
    rw [orderedFields, canonicalFields, canonicalFields, canonical_ordered item,
      canonicalFields_ordered rest]

end

/-- Agreeing values have one canonical text. -/
theorem canonical_congr {a b : Value} (same : Agrees a b) : canonical a = canonical b := by
  rw [← canonical_ordered a, same, canonical_ordered]

/-- A record whose keys are in order is written as it stands. -/
theorem canonical_record_of_sorted {fields : List (String × Value)}
    (sorted : fields.Pairwise fun a b => a.1 ≤ b.1) :
    canonical (record fields) = "\x7b" ++ ",".intercalate (fields.map fun field =>
      canonicalText field.1 ++ ":" ++ canonical field.2) ++ "\x7d" := by
  have same : fields.mergeSort (fun a b => a.1 ≤ b.1) = fields :=
    List.mergeSort_of_pairwise (sorted.imp fun below => decide_eq_true below)
  rw [canonical, ← canonicalFields_mergeSort, same, canonicalFields_eq_map, List.map_map]
  rfl

/-- The values of fields are put in order one by one. -/
theorem orderedFields_eq_map (fields : List (String × Value)) :
    orderedFields fields = fields.map fun field => (field.1, ordered field.2) := by
  induction fields with
  | nil => rfl
  | cons field rest ih => rw [orderedFields, ih, List.map_cons]

/-- Under different keys there is one order of fields by their keys. -/
theorem mergeSort_eq_of_perm {α : Type} {fields others : List (String × α)}
    (distinct : (fields.map Prod.fst).Nodup) (perm : fields.Perm others) :
    fields.mergeSort (fun a b => a.1 ≤ b.1) = others.mergeSort fun a b => a.1 ≤ b.1 := by
  have sorted (given : List (String × α)) := List.pairwise_mergeSort key_trans key_total given
  refine List.Perm.eq_of_pairwise ?_ (sorted _) (sorted _) ?_
  · intro a b inFields inOthers below above
    have one : a.1 = b.1 := by
      simp only [decide_eq_true_eq] at below above
      exact le_antisymm below above
    have inside := List.mem_mergeSort.mp inFields
    have other := perm.mem_iff.mpr (List.mem_mergeSort.mp inOthers)
    exact List.inj_on_of_nodup_map distinct inside other one
  · exact ((List.mergeSort_perm _ _).trans perm).trans (List.mergeSort_perm _ _).symm

/-- Records whose fields, under different keys, are in another order agree. -/
theorem agrees_of_perm {fields others : List (String × Value)}
    (distinct : (fields.map Prod.fst).Nodup) (perm : fields.Perm others) :
    Agrees (record fields) (record others) := by
  have moved : (orderedFields fields).Perm (orderedFields others) := by
    rw [orderedFields_eq_map, orderedFields_eq_map]
    exact perm.map _
  have keys : ((orderedFields fields).map Prod.fst).Nodup := by
    rw [orderedFields_eq_map, List.map_map]
    exact distinct
  rw [Agrees, ordered, ordered, mergeSort_eq_of_perm keys moved]

open Formula (StopsAt)

/-- Whether a value is made of data: it has no function in it and no key twice in a record. -/
inductive IsData : Value → Prop where
  | null : IsData null
  | bool (b : Bool) : IsData (bool b)
  | int (n : Int) : IsData (int n)
  | float (x : Float) : IsData (float x)
  | text (s : String) : IsData (text s)
  | list {items : List Value} (each : ∀ item ∈ items, IsData item) : IsData (list items)
  | record {fields : List (String × Value)} (distinct : (fields.map Prod.fst).Nodup)
    (each : ∀ field ∈ fields, IsData field.2) : IsData (record fields)

/-- Whether two values are the same up to the order of keys in their records. Floating-point numbers
are the same if they are displayed alike. -/
inductive Same : Value → Value → Prop where
  | null : Same null null
  | bool (b : Bool) : Same (bool b) (bool b)
  | int (n : Int) : Same (int n) (int n)
  | float {x y : Float} (displayed : Number.display x = Number.display y) : Same (float x) (float y)
  | text (s : String) : Same (text s) (text s)
  | list {items others : List Value} (count : items.length = others.length)
    (each : ∀ (i : Nat) a b, items[i]? = some a → others[i]? = some b → Same a b) :
    Same (list items) (list others)
  | record {fields others : List (String × Value)}
    (keys : (fields.map Prod.fst).Perm (others.map Prod.fst))
    (each : ∀ key a b, (key, a) ∈ fields → (key, b) ∈ others → Same a b) :
    Same (record fields) (record others)

section Sequences

/-- Pieces with commas between them. -/
theorem intercalate_cons (x : List Char) (xs : List (List Char)) :
    [','].intercalate (x :: xs) = x ++ xs.flatMap fun y => ',' :: y := by
  induction xs generalizing x with
  | nil => simp
  | cons y ys ih => rw [List.intercalate_cons_cons, ih, List.flatMap_cons, List.append_assoc]; rfl

variable {close : Char} {xs ys : List (List Char)} {rest rest' : List Char}

/-- Behind a piece of a sequence stands a comma or the closing mark. -/
theorem stopsAt_sequence (closes : isTokenChar close = false) (xs : List (List Char))
    (rest : List Char) :
    StopsAt isTokenChar ((xs.flatMap fun x => ',' :: x) ++ close :: rest) := by
  cases xs with
  | nil => exact fun c first => Option.some.inj first ▸ closes
  | cons x xs =>
    intro c first
    obtain rfl : ',' = c := Option.some.inj first
    rfl

/-- What follows the first piece of a sequence tells the other pieces. -/
theorem flatMap_append_inj (closes : isTokenChar close = false) (apart : close ≠ ',')
    (separable : ∀ x ∈ xs, ∀ y ∈ ys, AreSeparable x y)
    (same : (xs.flatMap fun x => ',' :: x) ++ close :: rest =
      (ys.flatMap fun y => ',' :: y) ++ close :: rest') : xs = ys ∧ rest = rest' := by
  induction xs generalizing ys with
  | nil =>
    cases ys with
    | nil => exact ⟨rfl, (List.cons.inj same).2⟩
    | cons y ys => exact absurd (List.cons.inj same).1 apart
  | cons x xs ih =>
    cases ys with
    | nil => exact absurd (List.cons.inj same).1.symm apart
    | cons y ys =>
      rw [List.flatMap_cons, List.flatMap_cons, List.append_assoc, List.append_assoc] at same
      have behind := (List.cons.inj same).2
      obtain ⟨rfl, others⟩ := separable x List.mem_cons_self y List.mem_cons_self _ _
        (stopsAt_sequence closes xs rest) (stopsAt_sequence closes ys rest') behind
      obtain ⟨rfl, rests⟩ := ih (fun x left y right =>
        separable x (List.mem_cons_of_mem _ left) y (List.mem_cons_of_mem _ right)) others
      exact ⟨rfl, rests⟩

/-- A sequence of pieces up to its closing mark tells its pieces, if none of them begins with that
mark. -/
theorem intercalate_append_inj (closes : isTokenChar close = false) (apart : close ≠ ',')
    (starts : ∀ x ∈ xs ++ ys, ∃ c tail, x = c :: tail ∧ c ≠ close)
    (separable : ∀ x ∈ xs, ∀ y ∈ ys, AreSeparable x y)
    (same : [','].intercalate xs ++ close :: rest = [','].intercalate ys ++ close :: rest') :
    xs = ys ∧ rest = rest' := by
  have mark (x : List Char) (others : List (List Char)) (rest rest' : List Char)
      (start : ∃ c tail, x = c :: tail ∧ c ≠ close) :
      close :: rest ≠ [','].intercalate (x :: others) ++ close :: rest' := by
    obtain ⟨c, tail, rfl, differs⟩ := start
    rw [intercalate_cons]
    exact fun same => differs (List.cons.inj same).1.symm
  cases xs with
  | nil =>
    cases ys with
    | nil => exact ⟨rfl, (List.cons.inj same).2⟩
    | cons y ys => exact absurd same (mark y ys rest rest' (starts y (by simp)))
  | cons x xs =>
    cases ys with
    | nil => exact absurd same.symm (mark x xs rest' rest (starts x (by simp)))
    | cons y ys =>
      rw [intercalate_cons, intercalate_cons, List.append_assoc, List.append_assoc] at same
      obtain ⟨rfl, others⟩ := separable x List.mem_cons_self y List.mem_cons_self _ _
        (stopsAt_sequence closes xs rest) (stopsAt_sequence closes ys rest') same
      obtain ⟨rfl, rests⟩ := flatMap_append_inj closes apart (fun x left y right =>
        separable x (List.mem_cons_of_mem _ left) y (List.mem_cons_of_mem _ right)) others
      exact ⟨rfl, rests⟩

end Sequences

section Compounds

variable {items others : List Value} {fields entries : List (String × Value)}
  {rest rest' : List Char}

/-- The canonical texts of the values of a list. -/
theorem canonicalItems_eq_map (items : List Value) : canonicalItems items = items.map canonical := by
  induction items with
  | nil => rfl
  | cons item rest ih => rw [canonicalItems, ih, List.map_cons]

/-- A list, character by character. -/
theorem toList_canonical_list (items : List Value) : (canonical (list items)).toList =
    '[' :: ([','].intercalate ((items.map canonical).map String.toList) ++ [']']) := by
  rw [canonical, String.toList_append, String.toList_append, String.toList_intercalate,
    canonicalItems_eq_map]
  rfl

/-- The keys of a record in order, each with the canonical text of its value. -/
def writtenFields (fields : List (String × Value)) : List (String × String) :=
  (canonicalFields fields).mergeSort fun a b => a.1 ≤ b.1

/-- A key and the text of its value, character by character. -/
def fieldChars (field : String × String) : List Char :=
  (canonicalText field.1).toList ++ ':' :: field.2.toList

/-- A record, character by character. -/
theorem toList_canonical_record (fields : List (String × Value)) :
    (canonical (record fields)).toList =
      '\x7b' :: ([','].intercalate ((writtenFields fields).map fieldChars) ++ ['\x7d']) := by
  have each (field : String × String) :
      (canonicalText field.1 ++ ":" ++ field.2).toList = fieldChars field := by
    simp [fieldChars]
  rw [canonical, String.toList_append, String.toList_append, String.toList_intercalate,
    List.map_map]
  simp only [Function.comp_def, each]
  rfl

/-- The text of a field tells its key and the text of its value. -/
theorem fieldChars_injective : Function.Injective fieldChars := by
  rintro ⟨key, body⟩ ⟨key', body'⟩ same
  obtain ⟨first, behind⟩ := canonicalText_append_inj same
  exact Prod.ext first (String.toList_inj.mp (List.cons.inj behind).2)

/-- The fields of a record are those that are written, in another order. -/
theorem writtenFields_perm (fields : List (String × Value)) :
    (writtenFields fields).Perm (fields.map fun field => (field.1, canonical field.2)) := by
  rw [writtenFields, ← canonicalFields_eq_map]
  exact List.mergeSort_perm _ _

/-- Canonical text of data is a word or a number, or begins with an opening mark. -/
theorem IsData.isToken_or_opens {value : Value} (data : value.IsData) :
    IsToken (canonical value).toList ∨ ∃ mark tail, (canonical value).toList = mark :: tail ∧
      (mark = '"' ∨ mark = '[' ∨ mark = '\x7b') := by
  cases data with
  | null => exact .inl isToken_null
  | bool b => exact .inl (isToken_bool b)
  | int n => exact .inl (isToken_int n)
  | float x => exact .inl (isToken_float x)
  | text s => exact .inr ⟨_, _, toList_canonicalText s, .inl rfl⟩
  | list => exact .inr ⟨_, _, toList_canonical_list _, .inr (.inl rfl)⟩
  | record => exact .inr ⟨_, _, toList_canonical_record _, .inr (.inr rfl)⟩

/-- Canonical text of data begins with no closing mark. -/
theorem IsData.exists_head {value : Value} (data : value.IsData) :
    ∃ c tail, (canonical value).toList = c :: tail ∧ c ≠ ']' ∧ c ≠ '\x7d' := by
  rcases data.isToken_or_opens with token | ⟨mark, tail, spelled, rfl | rfl | rfl⟩
  · obtain ⟨c, tail, spelled⟩ := List.exists_cons_of_ne_nil token.nonempty
    have own := token.tokenChars c (spelled ▸ List.mem_cons_self)
    exact ⟨c, tail, spelled, fun same => by simp [same, isTokenChar] at own,
      fun same => by simp [same, isTokenChar] at own⟩
  all_goals exact ⟨_, tail, spelled, by decide⟩

/-- The text of a list tells the texts of its values, if these tell where they end. -/
theorem list_append_inj (data : ∀ item ∈ items, item.IsData) (data' : ∀ item ∈ others, item.IsData)
    (separable : ∀ a ∈ items, ∀ b ∈ others, AreSeparable (canonical a).toList (canonical b).toList)
    (same : (canonical (list items)).toList ++ rest = (canonical (list others)).toList ++ rest') :
    items.map canonical = others.map canonical ∧ rest = rest' := by
  rw [toList_canonical_list, toList_canonical_list, List.cons_append, List.cons_append,
    List.append_assoc, List.append_assoc] at same
  have start {item : Value} (data : item.IsData) :
      ∃ c tail, (canonical item).toList = c :: tail ∧ c ≠ ']' := by
    obtain ⟨c, tail, spelled, other, _⟩ := data.exists_head
    exact ⟨c, tail, spelled, other⟩
  have starts : ∀ x ∈ (items.map canonical).map String.toList ++
      (others.map canonical).map String.toList, ∃ c tail, x = c :: tail ∧ c ≠ ']' := by
    simp only [List.forall_mem_append, List.forall_mem_map]
    exact ⟨fun item mem => start (data item mem), fun item mem => start (data' item mem)⟩
  have pieces : ∀ x ∈ (items.map canonical).map String.toList,
      ∀ y ∈ (others.map canonical).map String.toList, AreSeparable x y := by
    simpa only [List.forall_mem_map] using separable
  obtain ⟨texts, rests⟩ :=
    intercalate_append_inj rfl (by decide) starts pieces (List.cons.inj same).2
  exact ⟨List.map_injective_iff.mpr (fun _ _ => String.toList_inj.mp) texts, rests⟩

/-- The text of a record tells its fields, if the texts of their values tell where they end. -/
theorem record_append_inj
    (separable : ∀ field ∈ fields, ∀ entry ∈ entries,
      AreSeparable (canonical field.2).toList (canonical entry.2).toList)
    (same : (canonical (record fields)).toList ++ rest =
      (canonical (record entries)).toList ++ rest') :
    writtenFields fields = writtenFields entries ∧ rest = rest' := by
  rw [toList_canonical_record, toList_canonical_record, List.cons_append, List.cons_append,
    List.append_assoc, List.append_assoc] at same
  have start (field : String × String) : ∃ c tail, fieldChars field = c :: tail ∧ c ≠ '\x7d' :=
    ⟨_, _, by rw [fieldChars, toList_canonicalText, List.cons_append], by decide⟩
  have starts : ∀ x ∈ (writtenFields fields).map fieldChars ++
      (writtenFields entries).map fieldChars, ∃ c tail, x = c :: tail ∧ c ≠ '\x7d' := by
    simp only [List.forall_mem_append, List.forall_mem_map]
    exact ⟨fun field _ => start field, fun field _ => start field⟩
  have pieces : ∀ x ∈ (writtenFields fields).map fieldChars,
      ∀ y ∈ (writtenFields entries).map fieldChars, AreSeparable x y := by
    simp only [List.forall_mem_map]
    intro first left second right rest rest' stops stops' same
    obtain ⟨field, inside, rfl⟩ := List.mem_map.mp ((writtenFields_perm fields).mem_iff.mp left)
    obtain ⟨entry, listed, rfl⟩ := List.mem_map.mp ((writtenFields_perm entries).mem_iff.mp right)
    rw [fieldChars, fieldChars, List.append_assoc, List.append_assoc] at same
    obtain ⟨key, behind⟩ := canonicalText_append_inj same
    obtain ⟨body, rests⟩ := separable field inside entry listed rest rest' stops stops'
      (List.cons.inj behind).2
    refine ⟨?_, rests⟩
    rw [fieldChars, fieldChars, key, body]
  obtain ⟨texts, rests⟩ :=
    intercalate_append_inj rfl (by decide) starts pieces (List.cons.inj same).2
  exact ⟨List.map_injective_iff.mpr fieldChars_injective texts, rests⟩

/-- Lists are the same if their values are written alike and values that are written alike are the
same. -/
theorem same_list_of_map_eq (texts : items.map canonical = others.map canonical)
    (each : ∀ a ∈ items, ∀ b ∈ others, canonical a = canonical b → Same a b) :
    Same (list items) (list others) := by
  refine .list (by simpa using congrArg List.length texts) fun i a b here there => ?_
  refine each a (List.mem_of_getElem? here) b (List.mem_of_getElem? there) ?_
  have place := congrArg (fun texts => texts[i]?) texts
  simpa [here, there] using place

/-- Records are the same if their fields are written alike and values that are written alike are the
same. -/
theorem same_record_of_written_eq (distinct : (entries.map Prod.fst).Nodup)
    (written : writtenFields fields = writtenFields entries)
    (each : ∀ field ∈ fields, ∀ entry ∈ entries,
      canonical field.2 = canonical entry.2 → Same field.2 entry.2) :
    Same (record fields) (record entries) := by
  have perm := (writtenFields_perm fields).symm.trans (written ▸ writtenFields_perm entries)
  have keys := perm.map Prod.fst
  rw [List.map_map, List.map_map] at keys
  refine .record keys fun key a b here there => each (key, a) here (key, b) there ?_
  -- The key has one value in the other record.
  obtain ⟨⟨key', b'⟩, inside, same⟩ :=
    List.mem_map.mp (perm.mem_iff.mp (List.mem_map_of_mem here))
  obtain ⟨rfl, texts⟩ := Prod.mk.inj same
  obtain ⟨-, rfl⟩ := Prod.mk.inj (List.inj_on_of_nodup_map distinct inside there rfl)
  exact texts.symm

/-- Values in the same places of two lists that are written alike make lists that are. -/
theorem map_canonical_eq (count : items.length = others.length)
    (each : ∀ (i : Nat) a b, items[i]? = some a → others[i]? = some b → canonical a = canonical b) :
    items.map canonical = others.map canonical := by
  refine List.ext_getElem (by simp [count]) fun i here there => ?_
  rw [List.length_map] at here there
  rw [List.getElem_map, List.getElem_map]
  exact each i _ _ (List.getElem?_eq_getElem here) (List.getElem?_eq_getElem there)

/-- Under the same different keys, values that are written alike make fields that are: as many fields
of which each is among the others are the same fields. -/
theorem writtenFields_eq (distinct : (fields.map Prod.fst).Nodup)
    (keys : (fields.map Prod.fst).Perm (entries.map Prod.fst))
    (each : ∀ key a b, (key, a) ∈ fields → (key, b) ∈ entries → canonical a = canonical b) :
    writtenFields fields = writtenFields entries := by
  have names : ((canonicalFields fields).map Prod.fst).Nodup := by
    rw [canonicalFields_eq_map, List.map_map]
    exact distinct
  have subset : canonicalFields fields ⊆ canonicalFields entries := by
    rw [canonicalFields_eq_map, canonicalFields_eq_map]
    intro written mem
    obtain ⟨⟨key, a⟩, inside, rfl⟩ := List.mem_map.mp mem
    obtain ⟨⟨key', b⟩, listed, same⟩ :=
      List.mem_map.mp (keys.mem_iff.mp (List.mem_map_of_mem inside))
    obtain rfl : key' = key := same
    exact List.mem_map.mpr ⟨(key', b), listed, by rw [each key' a b inside listed]⟩
  have count : (canonicalFields entries).length ≤ (canonicalFields fields).length := by
    rw [canonicalFields_eq_map, canonicalFields_eq_map, List.length_map, List.length_map]
    simpa using keys.length_eq.ge
  exact mergeSort_eq_of_perm names ((List.subperm_of_subset names.of_map subset).perm_of_length_le count)

end Compounds

section Injective

variable {a b : Value}

/-- A token and the canonical text of data tell where they end. -/
theorem IsToken.separable_canonical {chars : List Char} (token : IsToken chars)
    (data : a.IsData) : AreSeparable chars (canonical a).toList := by
  rcases data.isToken_or_opens with other | ⟨mark, tail, spelled, rfl | rfl | rfl⟩
  · exact token.separable other
  all_goals exact spelled ▸ token.separable_cons rfl

/-- Data are no functions. -/
theorem IsData.kindName_ne (data : a.IsData) : a.kindName ≠ "function" := by
  cases data <;> simp [kindName]

/-- Canonical texts tell where they end if those of values of one kind do. -/
theorem separable_of_kind (data : a.IsData) (data' : b.IsData)
    (alike : a.kindName = b.kindName → AreSeparable (canonical a).toList (canonical b).toList) :
    AreSeparable (canonical a).toList (canonical b).toList := by
  rcases data.isToken_or_opens with token | ⟨mark, tail, spelled, opens⟩
  · exact token.separable_canonical data'
  rcases data'.isToken_or_opens with token | ⟨mark', tail', spelled', _⟩
  · exact (token.separable_canonical data).symm
  by_cases differ : mark = mark'
  · refine alike ?_
    rw [← canonicalKind_eq data.kindName_ne, ← canonicalKind_eq data'.kindName_ne, spelled, spelled',
      ← differ]
    rcases opens with rfl | rfl | rfl <;> rfl
  · rw [spelled, spelled']
    exact separable_cons_cons differ

/-- Canonical texts of data tell where they end. -/
theorem IsData.separable (data : a.IsData) (data' : b.IsData) :
    AreSeparable (canonical a).toList (canonical b).toList := by
  induction data generalizing b with
  | null => exact isToken_null.separable_canonical data'
  | bool c => exact (isToken_bool c).separable_canonical data'
  | int n => exact (isToken_int n).separable_canonical data'
  | float x => exact (isToken_float x).separable_canonical data'
  | text s =>
    refine separable_of_kind (.text s) data' fun kind => ?_
    cases data' with
    | text t =>
      intro rest rest' _ _ same
      obtain ⟨rfl, rests⟩ := canonicalText_append_inj same
      exact ⟨rfl, rests⟩
    | _ => simp [kindName] at kind
  | list each ih =>
    refine separable_of_kind (.list each) data' fun kind => ?_
    cases data' with
    | list each' =>
      intro rest rest' _ _ same
      obtain ⟨texts, rests⟩ := list_append_inj each each'
        (fun item mem other mem' => ih item mem (each' other mem')) same
      exact ⟨by rw [canonical, canonical, canonicalItems_eq_map, canonicalItems_eq_map, texts], rests⟩
    | _ => simp [kindName] at kind
  | record distinct each ih =>
    refine separable_of_kind (.record distinct each) data' fun kind => ?_
    cases data' with
    | record distinct' each' =>
      intro rest rest' _ _ same
      obtain ⟨written, rests⟩ := record_append_inj
        (fun field mem entry mem' => ih field mem (each' entry mem')) same
      exact ⟨by rw [toList_canonical_record, toList_canonical_record, written], rests⟩
    | _ => simp [kindName] at kind

/-- Data of one canonical text are of one kind. -/
theorem IsData.kindName_eq (data : a.IsData) (data' : b.IsData)
    (equal : canonical a = canonical b) : a.kindName = b.kindName := by
  rw [← canonicalKind_eq data.kindName_ne, ← canonicalKind_eq data'.kindName_ne, equal]

/-- Data of one canonical text are the same. -/
theorem IsData.same_of_canonical_eq (data : a.IsData) (data' : b.IsData)
    (equal : canonical a = canonical b) : Same a b := by
  induction data generalizing b with
  | null =>
    have kind := IsData.null.kindName_eq data' equal
    cases data' with
    | null => exact .null
    | _ => simp [kindName] at kind
  | bool c =>
    have kind := (IsData.bool c).kindName_eq data' equal
    cases data' with
    | bool d =>
      obtain rfl : c = d := by
        revert c d
        decide
      exact .bool c
    | _ => simp [kindName] at kind
  | int n =>
    have kind := (IsData.int n).kindName_eq data' equal
    cases data' with
    | int m => exact Int.repr_inj.mp equal ▸ .int n
    | _ => simp [kindName] at kind
  | float x =>
    have kind := (IsData.float x).kindName_eq data' equal
    cases data' with
    | float y => exact .float (canonicalFloat_eq_iff.mp equal)
    | _ => simp [kindName] at kind
  | text s =>
    have kind := (IsData.text s).kindName_eq data' equal
    cases data' with
    | text t => exact canonicalText_injective equal ▸ .text s
    | _ => simp [kindName] at kind
  | @list items each ih =>
    have kind := (IsData.list each).kindName_eq data' equal
    cases data' with
    | @list others each' =>
      have chars : (canonical (Value.list items)).toList ++ [] =
          (canonical (Value.list others)).toList ++ [] := by
        rw [equal]
      obtain ⟨texts, -⟩ := list_append_inj each each'
        (fun item mem other mem' => (each item mem).separable (each' other mem')) chars
      exact same_list_of_map_eq texts fun item mem other mem' => ih item mem (each' other mem')
    | _ => simp [kindName] at kind
  | @record fields distinct each ih =>
    have kind := (IsData.record distinct each).kindName_eq data' equal
    cases data' with
    | @record entries distinct' each' =>
      have chars : (canonical (Value.record fields)).toList ++ [] =
          (canonical (Value.record entries)).toList ++ [] := by
        rw [equal]
      obtain ⟨written, -⟩ := record_append_inj
        (fun field mem entry mem' => (each field mem).separable (each' entry mem')) chars
      exact same_record_of_written_eq distinct' written fun field mem entry mem' =>
        ih field mem (each' entry mem')
    | _ => simp [kindName] at kind

/-- The same data have one canonical text. -/
theorem Same.canonical_eq (same : Same a b) (data : a.IsData) (data' : b.IsData) :
    canonical a = canonical b := by
  induction same with
  | null | bool | int | text => rfl
  | float displayed => exact canonicalFloat_eq_iff.mpr displayed
  | list count _ ih =>
    cases data with
    | list own =>
      cases data' with
      | list own' =>
        have texts := map_canonical_eq count fun i a b here there => ih i a b here there
          (own a (List.mem_of_getElem? here)) (own' b (List.mem_of_getElem? there))
        rw [canonical, canonical, canonicalItems_eq_map, canonicalItems_eq_map, texts]
  | record keys _ ih =>
    cases data with
    | record distinct own =>
      cases data' with
      | record _ own' =>
        have written := writtenFields_eq distinct keys fun key a b here there =>
          ih key a b here there (own _ here) (own' _ there)
        rw [← String.toList_inj, toList_canonical_record, toList_canonical_record, written]

/-- Data have one canonical text exactly if they are the same up to the order of keys. -/
theorem canonical_eq_iff (data : a.IsData) (data' : b.IsData) :
    canonical a = canonical b ↔ Same a b :=
  ⟨data.same_of_canonical_eq data', fun same => same.canonical_eq data data'⟩

end Injective

end Multilevel.Value
