import Mathlib
import Multilevel.Program.Variable
import Multilevel.Text.Digit
import Multilevel.Text.Split

/-!
# Names of variables

Different variables of a program have different names, because a variable can be read back from
its name: the words between the underscores tell its kind, and the numbers among them its places.
-/
namespace Multilevel

namespace Variable

/-- The words of a name: its pieces between the underscores. -/
def words (name : String) : List String := (Text.splitOn '_' name.toList).map String.ofList

/-- The variables whose names are single words. -/
def singleWords : List Variable :=
  [observations, response, trials, coefficients, design, nonzeros, nonzeroColumns, rowStarts, order,
    centered, slopes, auxiliary .sigma, auxiliary .nu, auxiliary .shape, feedback, predictor,
    residualRows, residuals]

/-- The variables whose names are two words. -/
def doubleWords : List Variable :=
  [nonzeroCount, lags, priorOnly, means, temporaryIntercept, intercept, priorSlopes, priorIntercept,
    priorAuxiliary .sigma, priorAuxiliary .nu, priorAuxiliary .shape, priorFeedback]

/-- The variables of a term, under the words in front of its number. -/
def ofTerm : List (String × (Nat → Variable)) :=
  [("N", levelCount), ("M", effectCount), ("J", levelIndex), ("Lcov", covarianceFactor),
    ("sd", deviations), ("z", standardized), ("L", correlationFactor), ("r", effects),
    ("Cor", correlations)]

/-- The variables of a coefficient of a term, under the words in front of the numbers. -/
def ofCoefficient : List (String × (Nat → Nat → Variable)) := [("Z", effectDesign), ("r", effect)]

/-- The variable whose name is a word and what follows it. -/
def ofWords? (word : String) (rest : List String) : Option Variable :=
  if word = "Nk" then some (knotCount ("_".intercalate rest))
  else if word = "knots" then some (knots ("_".intercalate rest))
  else match rest.map Text.natural? with
    | [] => singleWords.find? fun v => v.name = word
    | [none] => doubleWords.find? fun v => words v.name = word :: rest
    | [some i] => (ofTerm.lookup word).map fun make => make i
    | [some i, some k] => (ofCoefficient.lookup word).map fun make => make i k
    | [none, some i] => some (priorDeviations i)
    | _ => none

/-- The variable of a name. -/
def ofName? (name : String) : Option Variable :=
  match words name with
  | [] => none
  | word :: rest => ofWords? word rest

/-- The words of a name without an underscore. -/
theorem words_of_not_mem {name : String} (free : '_' ∉ name.toList) : words name = [name] := by
  rw [words, Text.splitOn_of_not_mem free, List.map_singleton, String.ofList_toList]

/-- The words of two names with an underscore between them. -/
theorem words_joined (first rest : String) :
    words (first ++ "_" ++ rest) = words first ++ words rest := by
  have split : (first ++ "_" ++ rest).toList = first.toList ++ '_' :: rest.toList := by simp
  rw [words, split, Text.splitOn_joined, List.map_append, words, words]

/-- The first word of a name ends at the first underscore. -/
theorem words_append {first : String} (free : '_' ∉ first.toList) (rest : String) :
    words (first ++ "_" ++ rest) = first :: words rest := by
  rw [words_joined, words_of_not_mem free, List.singleton_append]

/-- There is no underscore in a number. -/
theorem not_mem_number (n : Nat) : '_' ∉ (toString n).toList := by
  intro mem
  rw [show (toString n).toList = Nat.toDigits 10 n from Nat.toList_repr] at mem
  have digit := Nat.isDigit_of_mem_toDigits (by omega) (by omega) mem
  simp [Char.isDigit] at digit

/-- A number is a single word. -/
theorem words_number (n : Nat) : words (toString n) = [toString n] :=
  words_of_not_mem (not_mem_number n)

/-- The words of a name joined again are the name. -/
theorem intercalate_words (name : String) : "_".intercalate (words name) = name := by
  rw [← String.toList_inj, String.toList_intercalate, words, List.map_map]
  simpa [Function.comp_def] using Text.intercalate_splitOn '_' name.toList

/-- The variable of a name that is a single word. -/
theorem ofName?_singleWord {v : Variable} (mem : v ∈ singleWords) : ofName? v.name = some v := by
  fin_cases mem <;> decide

/-- The variable of a name that is two words. -/
theorem ofName?_doubleWord {v : Variable} (mem : v ∈ doubleWords) : ofName? v.name = some v := by
  fin_cases mem <;> decide

/-- The variable of a word and a number is read back from its name. -/
theorem ofName?_number (word : String) {make : Nat → Variable} (i : Nat)
    (free : '_' ∉ word.toList) (other : word ≠ "Nk" ∧ word ≠ "knots")
    (listed : ofTerm.lookup word = some make) :
    ofName? (word ++ "_" ++ toString i) = some (make i) := by
  rw [ofName?, words_append free, words_number]
  simp only [ofWords?, other.1, other.2, ↓reduceIte, List.map_cons, List.map_nil,
    Text.natural?_toString, listed, Option.map_some]

/-- The variable of a word and two numbers is read back from its name. -/
theorem ofName?_numbers (word : String) {make : Nat → Nat → Variable} (i k : Nat)
    (free : '_' ∉ word.toList) (other : word ≠ "Nk" ∧ word ≠ "knots")
    (listed : ofCoefficient.lookup word = some make) :
    ofName? (word ++ "_" ++ (toString i ++ "_" ++ toString k)) = some (make i k) := by
  rw [ofName?, words_append free, words_append (not_mem_number i), words_number]
  simp only [ofWords?, other.1, other.2, ↓reduceIte, List.map_cons, List.map_nil,
    Text.natural?_toString, listed, Option.map_some]

/-- A text as a part of a longer one. -/
theorem toString_text (text : String) : toString text = text := rfl

/-- The draw from the prior of a term's deviations is read back from its name. -/
theorem ofName?_prior (i : Nat) :
    ofName? ("prior" ++ "_" ++ ("sd" ++ "_" ++ toString i)) = some (priorDeviations i) := by
  have word : Text.natural? "sd" = none := by decide
  rw [ofName?, words_append (by decide), words_append (by decide), words_number]
  simp only [ofWords?, List.map_cons, List.map_nil, word, Text.natural?_toString]
  simp

/-- The number of knots is read back from its name. -/
theorem ofName?_knotCount (suffix : String) :
    ofName? ("Nk" ++ "_" ++ suffix) = some (knotCount suffix) := by
  rw [ofName?, words_append (by decide)]
  simp [ofWords?, intercalate_words]

/-- The knots are read back from their name. -/
theorem ofName?_knots (suffix : String) :
    ofName? ("knots" ++ "_" ++ suffix) = some (knots suffix) := by
  rw [ofName?, words_append (by decide)]
  simp [ofWords?, intercalate_words]

/-- A variable is read back from its name. -/
theorem ofName?_name (v : Variable) : ofName? v.name = some v := by
  cases v with
  | levelCount i =>
    simpa [name, toString_text] using ofName?_number "N" i (by decide) (by decide) rfl
  | effectCount i =>
    simpa [name, toString_text] using ofName?_number "M" i (by decide) (by decide) rfl
  | levelIndex i =>
    simpa [name, toString_text] using ofName?_number "J" i (by decide) (by decide) rfl
  | covarianceFactor i =>
    simpa [name, toString_text] using ofName?_number "Lcov" i (by decide) (by decide) rfl
  | deviations i =>
    simpa [name, toString_text] using ofName?_number "sd" i (by decide) (by decide) rfl
  | standardized i =>
    simpa [name, toString_text] using ofName?_number "z" i (by decide) (by decide) rfl
  | correlationFactor i =>
    simpa [name, toString_text] using ofName?_number "L" i (by decide) (by decide) rfl
  | effects i =>
    simpa [name, toString_text] using ofName?_number "r" i (by decide) (by decide) rfl
  | correlations i =>
    simpa [name, toString_text] using ofName?_number "Cor" i (by decide) (by decide) rfl
  | effectDesign i k =>
    simpa [name, toString_text, String.append_assoc] using
      ofName?_numbers "Z" i k (by decide) (by decide) rfl
  | effect i k =>
    simpa [name, toString_text, String.append_assoc] using
      ofName?_numbers "r" i k (by decide) (by decide) rfl
  | priorDeviations i =>
    have named : (priorDeviations i).name = "prior" ++ "_" ++ ("sd" ++ "_" ++ toString i) := by
      rw [← String.append_assoc]
      simp [name, toString_text]
    rw [named, ofName?_prior]
  | knotCount suffix => simpa [name, toString_text] using ofName?_knotCount suffix
  | knots suffix => simpa [name, toString_text] using ofName?_knots suffix
  | auxiliary parameter => exact ofName?_singleWord (by cases parameter <;> decide)
  | priorAuxiliary parameter => exact ofName?_doubleWord (by cases parameter <;> decide)
  | observations | response | trials | coefficients | design | nonzeros | nonzeroColumns |
    rowStarts | order | centered | slopes | feedback | predictor | residualRows | residuals =>
    exact ofName?_singleWord (by decide)
  | nonzeroCount | lags | priorOnly | means | temporaryIntercept | intercept | priorSlopes |
    priorIntercept | priorFeedback =>
    exact ofName?_doubleWord (by decide)

/-- Different variables have different names. -/
theorem name_injective : Function.Injective name := fun first second same =>
  Option.some.inj ((ofName?_name first).symm.trans (same ▸ ofName?_name second))

end Variable

end Multilevel
