import Multilevel.Proofs.Terms.Design

/-!
# Labels tell the order of levels

The labels of a design's columns depend on the variables' levels alone, and two lists of levels that
hold the same texts in different orders give different labels: a factor's levels stand in the labels
of some term in the order in which they are listed (`Design.levels_eq_of_labels`). A label joins
texts that may themselves hold the separator, so the labels of a term are taken apart by their
lengths.
-/
namespace Multilevel

namespace Labels

variable {α : Type} {f g : α → List String}

/-- The labels of products: each label on the left with each on the right. -/
def joined (left right : List String) : List String :=
  left.flatMap fun a => right.map fun b => if a.isEmpty then b else a ++ ":" ++ b

/-- The labels of the products over a list, each item of which contributes labels of its own. -/
def product (f : α → List String) (items : List α) : List String :=
  items.foldl (fun labels item => joined labels (f item)) [""]

/-- How many characters texts have together. -/
def weight (texts : List String) : Nat := (texts.map String.length).sum

/-- Whether no text is empty, and there is one. -/
def AreNamed (texts : List String) : Prop := texts ≠ [] ∧ ∀ text ∈ texts, text ≠ ""

/-- One item more. -/
theorem product_append (f : α → List String) (items : List α) (last : α) :
    product f (items ++ [last]) = joined (product f items) (f last) := by
  rw [product, List.foldl_append]
  rfl

/-- A single item contributes its own labels. -/
theorem product_singleton (f : α → List String) (item : α) : product f [item] = f item := by
  simp [product, joined]

/-- Texts that are not empty are joined by a separator. -/
theorem joined_cons {a : String} (named : a ≠ "") (left right : List String) :
    joined (a :: left) right = right.map (a ++ ":" ++ ·) ++ joined left right := by
  simp [joined, named]

/-- How many labels products have. -/
theorem length_joined (left right : List String) :
    (joined left right).length = left.length * right.length := by
  simp [joined, List.length_flatMap]

/-- How many characters a list of texts has behind a prefix. -/
theorem weight_map (a : String) (texts : List String) :
    weight (texts.map (a ++ ·)) = texts.length * a.length + weight texts := by
  induction texts with
  | nil => simp [weight]
  | cons text rest ih =>
    simp only [weight, List.map_cons, List.sum_cons, List.length_cons, String.length_append] at ih ⊢
    rw [ih]
    ring

/-- How many characters the labels of products have. -/
theorem weight_joined {left : List String} (named : ∀ text ∈ left, text ≠ "")
    (right : List String) : weight (joined left right) =
      right.length * (weight left + left.length) + left.length * weight right := by
  induction left with
  | nil => simp [joined, weight]
  | cons a left ih =>
    obtain ⟨first, others⟩ := List.forall_mem_cons.mp named
    have split (xs ys : List String) : weight (xs ++ ys) = weight xs + weight ys := by
      simp [weight]
    have head : weight (a :: left) = a.length + weight left := rfl
    rw [joined_cons first, split, ih others, weight_map, head]
    have separated : (a ++ ":").length = a.length + 1 := by
      rw [String.length_append]
      rfl
    rw [separated, List.length_cons]
    ring

/-- Products of named labels are named. -/
theorem AreNamed.joined {left right : List String} (first : AreNamed left)
    (second : AreNamed right) : AreNamed (joined left right) := by
  constructor
  · rw [← List.length_pos_iff, length_joined]
    exact Nat.mul_pos (List.length_pos_iff.mpr first.1) (List.length_pos_iff.mpr second.1)
  · intro text mem
    simp only [Labels.joined, List.mem_flatMap, List.mem_map] at mem
    obtain ⟨a, inside, b, there, rfl⟩ := mem
    have given : a.isEmpty = false := by simpa using first.2 a inside
    rw [given]
    simp

/-- The labels of products over named ones are named. -/
theorem areNamed_product {items : List α} (some : items ≠ [])
    (named : ∀ item ∈ items, AreNamed (f item)) : AreNamed (product f items) := by
  induction items using List.reverseRecOn with
  | nil => exact absurd rfl some
  | append_singleton before last ih =>
    have own := named last (by simp)
    rw [product_append]
    by_cases first : before = []
    · subst first
      simpa [product, Labels.joined] using own
    · exact (ih first fun item mem => named item (by simp [mem])).joined own

/-- Whether two ways to label a list contribute equally many labels for each item. -/
def Match (f g : α → List String) (items : List α) : Prop :=
  ∀ item ∈ items, (f item).length = (g item).length ∧ AreNamed (f item) ∧ AreNamed (g item)

/-- The items before the last one, and the last one. -/
theorem Match.append {items : List α} {last : α} (matched : Match f g (items ++ [last])) :
    Match f g items ∧ (f last).length = (g last).length ∧ AreNamed (f last) ∧ AreNamed (g last) :=
  ⟨fun item mem => matched item (by simp [mem]), matched last (by simp)⟩

/-- Products have equally many labels if their factors have. -/
theorem length_product {items : List α}
    (lengths : ∀ item ∈ items, (f item).length = (g item).length) :
    (product f items).length = (product g items).length := by
  induction items using List.reverseRecOn with
  | nil => rfl
  | append_singleton before last ih =>
    rw [product_append, product_append, length_joined, length_joined,
      ih fun item mem => lengths item (by simp [mem]), lengths last (by simp)]

/-- Products of longer labels are longer, and equally long only if all factors are. -/
theorem Match.weight_le {items : List α} (matched : Match f g items)
    (weights : ∀ item ∈ items, weight (f item) ≤ weight (g item)) :
    weight (product f items) ≤ weight (product g items) ∧
      (weight (product f items) = weight (product g items) →
        ∀ item ∈ items, weight (f item) = weight (g item)) := by
  induction items using List.reverseRecOn with
  | nil => simp [product]
  | append_singleton before last ih =>
    obtain ⟨earlier, length, left, right⟩ := matched.append
    obtain ⟨le, equal⟩ := ih earlier fun item mem => weights item (by simp [mem])
    have bound := weights last (by simp)
    have split {p : α → Prop} (all : ∀ item ∈ before, p item) (own : p last) :
        ∀ item ∈ before ++ [last], p item := by
      simpa [or_imp, forall_and] using ⟨all, own⟩
    by_cases first : before = []
    · subst first
      simp only [List.nil_append, product_singleton]
      exact ⟨bound, fun same => split (by simp) same⟩
    · have before' := areNamed_product first fun item mem => (earlier item mem).2.1
      have after := areNamed_product first fun item mem => (earlier item mem).2.2
      have count := (length_product fun item mem => (earlier item mem).1)
      have some : 0 < (product g before).length := List.length_pos_iff.mpr after.1
      have own : 0 < (g last).length := List.length_pos_iff.mpr right.1
      rw [product_append, product_append, weight_joined before'.2, weight_joined after.2, length,
        count]
      have heads := Nat.mul_le_mul_left (g last).length
        (Nat.add_le_add_right le (product g before).length)
      have tails := Nat.mul_le_mul_left (product g before).length bound
      refine ⟨Nat.add_le_add heads tails, fun same => ?_⟩
      have first' := Nat.le_antisymm heads (by omega)
      have second := Nat.le_antisymm tails (by omega)
      refine split (equal ?_) (Nat.eq_of_mul_eq_mul_left some second)
      have sums := Nat.eq_of_mul_eq_mul_left own first'
      omega

/-- Equally many characters behind prefixes that end in a separator tell the prefixes. -/
theorem map_inj {a b : String} {xs ys : List String} (some : xs ≠ [])
    (length : xs.length = ys.length) (weights : weight xs = weight ys)
    (same : xs.map (a ++ ·) = ys.map (b ++ ·)) : a = b ∧ xs = ys := by
  have total := congrArg weight same
  rw [weight_map, weight_map, weights, length] at total
  have positive : 0 < ys.length := length ▸ List.length_pos_iff.mpr some
  have prefixes : a.length = b.length :=
    Nat.eq_of_mul_eq_mul_left positive (Nat.add_right_cancel total)
  obtain ⟨x, xs, rfl⟩ := List.exists_cons_of_ne_nil some
  cases ys with
  | nil => simp at positive
  | cons y ys =>
    have first := congrArg String.toList (List.cons.inj same).1
    rw [String.toList_append, String.toList_append] at first
    obtain ⟨equal, _⟩ := List.append_inj first (by simp only [String.length_toList, prefixes])
    obtain rfl := String.toList_inj.mp equal
    have injective : Function.Injective (a ++ ·) :=
      fun _ _ own => (String.append_right_inj a).mp own
    exact ⟨rfl, List.map_injective_iff.mpr injective same⟩

/-- Labels of products tell the labels on both sides, if those on the right have equally many
characters. -/
theorem joined_inj {left left' right right' : List String} (some : right ≠ [])
    (named : ∀ text ∈ left, text ≠ "") (named' : ∀ text ∈ left', text ≠ "")
    (count : left.length = left'.length) (length : right.length = right'.length)
    (weights : weight right = weight right') (same : joined left right = joined left' right') :
    left = left' ∧ (left ≠ [] → right = right') := by
  induction left generalizing left' with
  | nil => exact ⟨(List.length_eq_zero_iff.mp count.symm).symm, fun none => absurd rfl none⟩
  | cons a left ih =>
    cases left' with
    | nil => cases count
    | cons b left' =>
      obtain ⟨first, others⟩ := List.forall_mem_cons.mp named
      obtain ⟨first', others'⟩ := List.forall_mem_cons.mp named'
      rw [joined_cons first, joined_cons first'] at same
      obtain ⟨heads, tails⟩ := List.append_inj same (by simp [length])
      obtain ⟨prefixes, equal⟩ := map_inj some length weights heads
      have equal' : a = b := by
        have texts := congrArg String.toList prefixes
        rw [String.toList_append, String.toList_append] at texts
        exact String.toList_inj.mp (List.append_cancel_right texts)
      obtain ⟨rest, _⟩ := ih others others' (Nat.succ.inj count) tails
      exact ⟨by rw [equal', rest], fun _ => equal⟩

/-- Labels of products over factors with equally many characters tell the labels of the factors. -/
theorem Match.eq_of_product_eq {items : List α} (matched : Match f g items)
    (weights : ∀ item ∈ items, weight (f item) = weight (g item))
    (same : product f items = product g items) : ∀ item ∈ items, f item = g item := by
  induction items using List.reverseRecOn with
  | nil => simp
  | append_singleton before last ih =>
    obtain ⟨earlier, length, left, right⟩ := matched.append
    have both (all : ∀ item ∈ before, f item = g item) (own : f last = g last) :
        ∀ item ∈ before ++ [last], f item = g item := by
      simpa [or_imp, forall_and] using ⟨all, own⟩
    by_cases first : before = []
    · subst first
      simp only [List.nil_append, product_singleton] at same
      exact both (by simp) same
    · have before' := areNamed_product first fun item mem => (earlier item mem).2.1
      have after := areNamed_product first fun item mem => (earlier item mem).2.2
      rw [product_append, product_append] at same
      obtain ⟨rest, own⟩ := joined_inj left.1 before'.2 after.2
        (length_product fun item mem => (earlier item mem).1) length
        (weights last (by simp)) same
      exact both (ih earlier (fun item mem => weights item (by simp [mem])) rest) (own before'.1)

/-- Labels of products over factors none of which has more characters tell the labels of the
factors. -/
theorem Match.eq_of_weight_le {items : List α} (matched : Match f g items)
    (weights : ∀ item ∈ items, weight (f item) ≤ weight (g item))
    (same : product f items = product g items) : ∀ item ∈ items, f item = g item :=
  matched.eq_of_product_eq ((matched.weight_le weights).2 (by rw [same])) same

/-- Labels match in both directions. -/
theorem Match.symm {items : List α} (matched : Match f g items) : Match g f items :=
  fun item mem => ⟨(matched item mem).1.symm, (matched item mem).2.2, (matched item mem).2.1⟩

end Labels

namespace Predictor

variable {β : Type} {rows : Nat}

/-- The levels of a factor; none for numbers. -/
def levels? : Predictor β rows → Option (List String)
  | factor levels _ => some levels
  | numeric _ => none

end Predictor

namespace Design

open Labels (AreNamed Match weight product)

/-- The labels that a variable contributes, given the levels of the factors. -/
def contributed (kinds : String → Option (List String)) (choice : String × Bool) : List String :=
  match kinds choice.1 with
  | none => [choice.1]
  | some levels => (if choice.2 then levels else levels.tail).map (choice.1 ++ ·)

/-- How the variables of a term are coded, given the levels of the factors. -/
def codingOf (kinds : String → Option (List String)) (all : List Term) (constant : Bool)
    (term : Term) : List (String × Bool) × Bool :=
  match term.names with
  | [name] =>
    if constant then ([(name, false)], true)
    else ([(name, (kinds name).isSome)], (kinds name).isSome)
  | names => (names.map fun name => (name, isFull all term name), constant)

/-- The labels of each term, given the levels of the factors. -/
def labelsFrom (kinds : String → Option (List String)) (all : List Term) :
    Bool → List Term → List (List String)
  | _, [] => []
  | constant, term :: rest =>
    product (contributed kinds) (codingOf kinds all constant term).1 ::
      labelsFrom kinds all (codingOf kinds all constant term).2 rest

section Found

variable {β : Type} {rows : Nat} {find : Predictors β rows} {kinds : String → Option (List String)}

/-- Whether the factors that are found have the given levels. -/
def HasKinds (find : Predictors β rows) (kinds : String → Option (List String)) : Prop :=
  ∀ name predictor, find name = .ok predictor → predictor.levels? = kinds name

/-- The coding of a term follows from the levels of the factors. -/
theorem coding_eq (has : HasKinds find kinds) {all : List Term} {constant : Bool} {term : Term}
    {coded : List (String × Bool) × Bool} (done : coding find all constant term = .ok coded) :
    coded = codingOf kinds all constant term := by
  unfold coding at done
  unfold codingOf
  rcases names : term.names with _ | ⟨name, _ | ⟨second, rest⟩⟩
  · rw [names] at done
    exact (Except.ok.inj done).symm
  · rw [names] at done
    dsimp only at done ⊢
    by_cases always : constant = true
    · rw [if_pos always] at done ⊢
      exact (Except.ok.inj done).symm
    · rw [if_neg always] at done ⊢
      simp only [bind_eq_ok, pure_eq_ok] at done
      obtain ⟨predictor, found, rfl⟩ := done
      have factor : predictor.isFactor = predictor.levels?.isSome := by cases predictor <;> rfl
      rw [← has _ _ found, factor]
  · rw [names] at done
    exact (Except.ok.inj done).symm

variable [OfNat β 0] [OfNat β 1]

/-- The labels of a variable follow from its levels. -/
theorem labels_columns (predictor : Predictor β rows) (name : String) (full : Bool) :
    (predictor.columns name full).map DesignColumn.label =
      contributed (fun _ => predictor.levels?) (name, full) := by
  cases predictor with
  | numeric cells => rfl
  | factor levels codes =>
    have texts : (List.finRange levels.length).map (fun level => name ++ levels.get level) =
        levels.map (name ++ ·) := by
      calc _ = ((List.finRange levels.length).map levels.get).map (name ++ ·) :=
            List.map_map.symm
        _ = _ := by rw [List.map_get_finRange]
    simp only [Predictor.columns, contributed, Predictor.levels?]
    split <;> simp [← texts, Function.comp_def]

variable [Mul β]

/-- The labels of a term follow from the levels of the factors. -/
theorem labels_termColumns (has : HasKinds find kinds) {choices : List (String × Bool)}
    {columns : List (DesignColumn β rows)} (done : termColumns find choices = .ok columns) :
    columns.map DesignColumn.label = product (contributed kinds) choices := by
  refine foldlM_spec (fun before columns =>
    columns.map DesignColumn.label = product (contributed kinds) before) ?_ [] choices rfl done
  rintro before ⟨name, full⟩ columns next labels step
  rw [Labels.product_append, ← labels]
  dsimp only at step
  split at step
  · rename_i none
    obtain rfl := Except.ok.inj step
    rw [List.isEmpty_iff.mp none]
    rfl
  · simp only [bind_eq_ok, pure_eq_ok] at step
    obtain ⟨predictor, found, rfl⟩ := step
    have own := labels_columns predictor name full
    rw [has _ _ found] at own
    have same : contributed (fun _ => kinds name) (name, full) =
        contributed kinds (name, full) := rfl
    rw [← same, ← own]
    simp [Labels.joined, List.map_flatMap, List.flatMap_map, DesignColumn.times, Function.comp_def]

/-- The labels of terms follow from the levels of the factors. -/
theorem labels_columnsOf (has : HasKinds find kinds) {all terms : List Term} {constant : Bool}
    {columns : List (DesignColumn β rows)}
    (done : columnsOf find all constant terms = .ok columns) :
    columns.map DesignColumn.label = (labelsFrom kinds all constant terms).flatten := by
  induction terms generalizing constant columns with
  | nil =>
    obtain rfl := Except.ok.inj done
    rfl
  | cons term rest ih =>
    obtain ⟨choices, after, own, others, coded, made, remaining, rfl⟩ := columnsOf_cons_eq_ok done
    have coding := coding_eq has coded
    rw [labelsFrom, ← coding, List.flatten_cons, List.map_append, ih remaining,
      labels_termColumns has made]

end Found

/-- Whether two variables are numbers both, or factors with the same levels in whatever order. -/
def KindsAgree : Option (List String) → Option (List String) → Prop
  | none, none => True
  | some levels, some levels' => levels ≠ [] ∧ levels.Perm levels'
  | _, _ => False

/-- Variables that agree are numbers both or factors both. -/
theorem KindsAgree.cases {left right : Option (List String)} (agree : KindsAgree left right) :
    (left = none ∧ right = none) ∨ ∃ levels levels', left = some levels ∧ right = some levels' ∧
      levels ≠ [] ∧ levels.Perm levels' := by
  unfold KindsAgree at agree
  split at agree
  · exact .inl ⟨rfl, rfl⟩
  · exact .inr ⟨_, _, rfl, rfl, agree⟩
  · cases agree

section Order

variable {kinds kinds' : String → Option (List String)} {all terms : List Term} {term : Term}

/-- A coding of a term's variables; in an interaction, those are coded in full without which the
interaction is no term. -/
def IsCoding (all : List Term) (term : Term) (choices : List (String × Bool)) : Prop :=
  choices.map Prod.fst = term.names ∧ (term.names.length ≠ 1 →
    choices = term.names.map fun name => (name, isFull all term name))

/-- The variables of a term are coded so. -/
theorem isCoding_codingOf (kinds : String → Option (List String)) (all : List Term)
    (constant : Bool) (term : Term) : IsCoding all term (codingOf kinds all constant term).1 := by
  unfold codingOf
  split
  · rename_i name single
    unfold IsCoding
    rw [single]
    split <;> exact ⟨rfl, fun several => absurd rfl several⟩
  · exact ⟨by simp [Function.comp_def], fun _ => rfl⟩

/-- Variables that agree contribute equally many labels. -/
theorem KindsAgree.length_contributed {name : String}
    (agree : KindsAgree (kinds name) (kinds' name)) (full : Bool) :
    (contributed kinds (name, full)).length = (contributed kinds' (name, full)).length := by
  unfold contributed
  dsimp only
  obtain ⟨left, right⟩ | ⟨levels, levels', left, right, _, perm⟩ := agree.cases
  · rw [left, right]
  · have same := perm.length_eq
    rw [left, right]
    cases full <;> simp [same]

/-- If the labels of all terms agree, those of each do. -/
theorem labels_eq_of_flatten_eq {constant : Bool}
    (agree : ∀ term ∈ terms, ∀ name ∈ term.names, KindsAgree (kinds name) (kinds' name))
    (same : (labelsFrom kinds all constant terms).flatten =
      (labelsFrom kinds' all constant terms).flatten) :
    ∀ term ∈ terms, ∃ choices, IsCoding all term choices ∧
      product (contributed kinds) choices = product (contributed kinds') choices := by
  induction terms generalizing constant with
  | nil => simp
  | cons term rest ih =>
    obtain ⟨first, others⟩ := List.forall_mem_cons.mp agree
    have coded : codingOf kinds all constant term = codingOf kinds' all constant term := by
      unfold codingOf
      split
      · rename_i name single
        have own := first name (by simp [single])
        obtain ⟨left, right⟩ | ⟨_, _, left, right, _⟩ := own.cases
        · rw [left, right]
        · rw [left, right, Option.isSome_some, Option.isSome_some]
      · rfl
    have coding := isCoding_codingOf kinds' all constant term
    rw [labelsFrom, labelsFrom, coded, List.flatten_cons, List.flatten_cons] at same
    have lengths : (product (contributed kinds) (codingOf kinds' all constant term).1).length =
        (product (contributed kinds') (codingOf kinds' all constant term).1).length := by
      refine Labels.length_product fun choice mem => (first choice.1 ?_).length_contributed choice.2
      rw [← coding.1]
      exact List.mem_map_of_mem mem
    obtain ⟨own, remaining⟩ := List.append_inj same lengths
    exact List.forall_mem_cons.mpr ⟨⟨_, coding, own⟩, ih others remaining⟩

/-- Lists with the same texts are the same if all but their first texts are. -/
theorem eq_of_tail_eq {xs ys : List String} (perm : xs.Perm ys) (same : xs.tail = ys.tail) :
    xs = ys := by
  cases xs with
  | nil => exact (List.nil_perm.mp perm).symm
  | cons x xs =>
    cases ys with
    | nil => exact absurd perm.length_eq (by simp)
    | cons y ys =>
      obtain rfl : xs = ys := same
      have counts : (x ::ₘ (xs : Multiset String)) = y ::ₘ (xs : Multiset String) :=
        Quotient.sound perm
      rw [(Multiset.cons_inj_left _).mp counts]

/-- A variable's labels tell its levels. -/
theorem KindsAgree.eq_of_contributed_eq {name : String} {full : Bool}
    (agree : KindsAgree (kinds name) (kinds' name))
    (same : contributed kinds (name, full) = contributed kinds' (name, full)) :
    kinds name = kinds' name := by
  unfold contributed at same
  dsimp only at same
  obtain ⟨left, right⟩ | ⟨levels, levels', left, right, _, perm⟩ := agree.cases
  · rw [left, right]
  · rw [left, right] at same ⊢
    have used := List.map_injective_iff.mpr
      (fun _ _ own => (String.append_right_inj name).mp own) same
    cases full with
    | true => exact congrArg some used
    | false => exact congrArg some (eq_of_tail_eq perm used)

/-- A variable that is coded in full, or is a number, has as many characters in its labels. -/
theorem KindsAgree.weight_contributed {name : String}
    (agree : KindsAgree (kinds name) (kinds' name)) :
    weight (contributed kinds (name, true)) = weight (contributed kinds' (name, true)) := by
  unfold contributed
  dsimp only
  obtain ⟨left, right⟩ | ⟨levels, levels', left, right, _, perm⟩ := agree.cases
  · rw [left, right]
  · rw [left, right]
    exact ((perm.map (name ++ ·)).map String.length).sum_eq

/-- The labels that a variable contributes are named if it has a name and contributes any. -/
theorem areNamed_contributed {choice : String × Bool} (named : choice.1 ≠ "")
    (some : contributed kinds choice ≠ []) : AreNamed (contributed kinds choice) := by
  refine ⟨some, fun text mem => ?_⟩
  unfold contributed at mem
  split at mem
  · exact List.mem_singleton.mp mem ▸ named
  · obtain ⟨level, _, rfl⟩ := List.mem_map.mp mem
    simp [named]

/-- An interaction tells the levels of a variable if it codes all others in full. -/
theorem levels_eq_of_full {name : String} (mem : name ∈ term.names)
    (named : ∀ name ∈ term.names, name ≠ "")
    (agree : ∀ name ∈ term.names, KindsAgree (kinds name) (kinds' name))
    (full : ∀ other ∈ term.names, other ≠ name → isFull all term other = true)
    (same : product (contributed kinds) (term.names.map fun name => (name, isFull all term name)) =
      product (contributed kinds') (term.names.map fun name => (name, isFull all term name))) :
    kinds name = kinds' name := by
  have own := agree name mem
  have length := own.length_contributed (isFull all term name)
  refine own.eq_of_contributed_eq (?_ : contributed kinds (name, isFull all term name) = _)
  by_cases none : contributed kinds (name, isFull all term name) = []
  · rw [none] at length ⊢
    exact (List.length_eq_zero_iff.mp length.symm).symm
  · have weights (other : String) (inside : other ∈ term.names) (differs : other ≠ name) :
        weight (contributed kinds (other, isFull all term other)) =
          weight (contributed kinds' (other, isFull all term other)) := by
      rw [full other inside differs]
      exact (agree other inside).weight_contributed
    have some (other : String) (inside : other ∈ term.names) :
        contributed kinds (other, isFull all term other) ≠ [] := by
      by_cases differs : other = name
      · exact differs ▸ none
      · rw [full other inside differs]
        unfold contributed
        obtain ⟨left, _⟩ | ⟨levels, _, left, _, some, _⟩ := (agree other inside).cases <;>
          simp_all
    have matched : Match (contributed kinds) (contributed kinds')
        (term.names.map fun name => (name, isFull all term name)) := by
      intro choice listed
      obtain ⟨other, inside, rfl⟩ := List.mem_map.mp listed
      have length := (agree other inside).length_contributed (isFull all term other)
      have some' : contributed kinds' (other, isFull all term other) ≠ [] := by
        rw [← List.length_pos_iff, ← length]
        exact List.length_pos_iff.mpr (some other inside)
      exact ⟨length, areNamed_contributed (named other inside) (some other inside),
        areNamed_contributed (named other inside) some'⟩
    have listed : (name, isFull all term name) ∈
        term.names.map fun name => (name, isFull all term name) := List.mem_map_of_mem mem
    -- The other variables have as many characters in their labels on both sides, so the labels of
    -- one side have no more characters than those of the other.
    rcases Nat.le_total (weight (contributed kinds (name, isFull all term name)))
      (weight (contributed kinds' (name, isFull all term name))) with less | more
    · refine matched.eq_of_weight_le (fun choice listed => ?_) same _ listed
      obtain ⟨other, inside, rfl⟩ := List.mem_map.mp listed
      by_cases differs : other = name
      · exact differs ▸ less
      · exact (weights other inside differs).le
    · refine (matched.symm.eq_of_weight_le (fun choice listed => ?_) same.symm _ listed).symm
      obtain ⟨other, inside, rfl⟩ := List.mem_map.mp listed
      by_cases differs : other = name
      · exact differs ▸ more
      · exact (weights other inside differs).ge

/-- The labels of a design tell the levels of its factors, in their order. -/
theorem levels_eq_of_labels {constant : Bool}
    (named : ∀ term ∈ terms, ∀ name ∈ term.names, name ≠ "")
    (agree : ∀ term ∈ terms, ∀ name ∈ term.names, KindsAgree (kinds name) (kinds' name))
    (same : (labelsFrom kinds terms constant terms).flatten =
      (labelsFrom kinds' terms constant terms).flatten) :
    ∀ term ∈ terms, ∀ name ∈ term.names, kinds name = kinds' name := by
  intro term mem
  -- By induction on the number of variables: what a term leaves out, a smaller term tells.
  induction size : term.names.toFinset.card using Nat.strong_induction_on generalizing term with
  | _ n ih =>
    intro name inside
    obtain ⟨choices, ⟨names, several⟩, equal⟩ := labels_eq_of_flatten_eq agree same term mem
    have own := agree term mem
    by_cases single : term.names.length = 1
    · obtain ⟨only, listed⟩ := List.length_eq_one_iff.mp single
      obtain rfl : name = only := by simpa [listed] using inside
      obtain ⟨⟨_, full⟩, rfl⟩ := List.length_eq_one_iff.mp
        (show choices.length = 1 by rw [← List.length_map Prod.fst, names, single])
      obtain rfl := (List.cons.inj (names.trans listed)).1
      rw [Labels.product_singleton, Labels.product_singleton] at equal
      exact (own _ inside).eq_of_contributed_eq equal
    · obtain rfl := several single
      by_cases full : ∀ other ∈ term.names, other ≠ name → isFull terms term other = true
      · exact levels_eq_of_full inside (named term mem) own full equal
      · push Not at full
        obtain ⟨other, there, differs, dropped⟩ := full
        obtain ⟨smaller, member, rest⟩ := exists_smaller (Bool.eq_false_iff.mpr dropped)
        have fewer := Finset.card_erase_lt_of_mem (List.mem_toFinset.mpr there)
        refine ih smaller.names.toFinset.card (by rw [rest, ← size]; exact fewer) smaller member rfl
          name ?_
        rw [← List.mem_toFinset, rest]
        exact Finset.mem_erase.mpr ⟨fun equal => differs equal.symm, List.mem_toFinset.mpr inside⟩

end Order

end Design

end Multilevel
