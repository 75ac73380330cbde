import Multilevel.Model.Covariance
import Multilevel.Proofs.Number.Alike
import Multilevel.Proofs.Terms.Tree

/-!
# Covariance matrices

The matrix of a grouping factor has one row and one column per level, and so has its Cholesky
factor.

Matrices with equal entries may differ in the signs of zeros. So may their Cholesky factors, and in
nothing else (`Covariance.cholesky_alike`): the entries on the diagonal, by which the others are
divided, are positive and hence the same.
-/
namespace Multilevel

namespace Covariance

/-- A row of a Cholesky factor is at most one longer than there are rows above it. -/
theorem nextRow_length {above : List (List Float)} {row next : List Float}
    (made : nextRow above row = some next) : next.length ≤ above.length + 1 := by
  -- Each row above contributes at most one entry left of the diagonal.
  have left (pairs : List (List Float × Float)) (entries : List Float) :
      (pairs.foldl (fun entries pair =>
        entries ++ [(pair.2 - dot entries pair.1) * (1.0 / pair.1.getLastD 1.0)]) entries).length =
        entries.length + pairs.length := by
    induction pairs generalizing entries with
    | nil => rfl
    | cons first rest ih =>
      rw [List.foldl_cons, ih, List.length_append, List.length_singleton, List.length_cons]
      omega
  simp only [nextRow] at made
  split at made
  · cases made
  · obtain rfl := Option.some.inj made
    rw [List.length_append, List.length_singleton, left, List.length_nil, List.length_zip]
    omega

/-- There is one row of the Cholesky factor per row of the matrix, none longer than there are rows
up to it. -/
theorem choleskyRows_length {rows above made : List (List Float)}
    (done : rows.foldlM (fun above row => do return above ++ [← nextRow above row]) above =
      some made) (short : ∀ row ∈ above, row.length ≤ above.length) :
    made.length = above.length + rows.length ∧ ∀ row ∈ made, row.length ≤ made.length := by
  induction rows generalizing above with
  | nil =>
    obtain rfl := Option.some.inj done
    exact ⟨rfl, short⟩
  | cons row rest ih =>
    rw [List.foldlM_cons, Option.bind_eq_bind, Option.bind_eq_some_iff] at done
    obtain ⟨next, step, done⟩ := done
    obtain ⟨last, found, step⟩ := Option.bind_eq_some_iff.mp step
    obtain rfl := Option.some.inj step
    have grown : ∀ other ∈ above ++ [last], other.length ≤ (above ++ [last]).length := by
      intro other mem
      rw [List.length_append, List.length_singleton]
      rcases List.mem_append.mp mem with earlier | new
      · exact Nat.le_succ_of_le (short other earlier)
      · exact List.mem_singleton.mp new ▸ nextRow_length found
    obtain ⟨length, within⟩ := ih done grown
    refine ⟨?_, within⟩
    rw [length, List.length_append, List.length_singleton, List.length_cons]
    omega

/-- The Cholesky factor of a matrix has the shape of the matrix. -/
theorem cholesky_shape {m : Covariance} {rows : List (List Float)} (done : m.cholesky = some rows) :
    rows.length = m.size ∧ ∀ row ∈ rows, row.length = m.size := by
  rw [cholesky, Option.bind_eq_bind, Option.bind_eq_some_iff] at done
  obtain ⟨made, found, done⟩ := done
  obtain rfl := Option.some.inj done
  obtain ⟨length, within⟩ := choleskyRows_length found (by simp)
  have size : made.length = m.size := by simpa using length
  refine ⟨by simpa using size, fun row mem => ?_⟩
  obtain ⟨entries, inside, rfl⟩ := List.mem_map.mp mem
  have short := within entries inside
  rw [List.length_append, List.length_replicate]
  omega

/-- A matrix of given rows has the size asked for. -/
theorem size_of_ofRows? {size : Nat} {rows : List (List Float)} {m : Covariance}
    (made : ofRows? size rows = some m) : m.size = size := by
  rw [ofRows?, Option.bind_eq_bind, Option.bind_eq_some_iff] at made
  obtain ⟨vectors, _, made⟩ := made
  split at made
  · obtain rfl := Option.some.inj made
    rfl
  · cases made

/-- A matrix of given rows has the numbers of these rows. -/
theorem rows_of_ofRows? {size : Nat} {rows : List (List Float)} {c : Covariance}
    (made : ofRows? size rows = some c) : c.cells.toList.map Vector.toList = rows := by
  rw [ofRows?, Option.bind_eq_bind, Option.bind_eq_some_iff] at made
  obtain ⟨vectors, each, made⟩ := made
  have lists : vectors.map Vector.toList = rows := by
    clear made
    induction rows generalizing vectors with
    | nil =>
      obtain rfl := Option.some.inj each
      rfl
    | cons row rest ih =>
      simp only [List.mapM_cons, Option.bind_eq_bind, Option.bind_eq_some_iff] at each
      obtain ⟨first, fits, others, taken, each⟩ := each
      obtain rfl := Option.some.inj each
      split at fits
      · obtain rfl := Option.some.inj fits
        rw [List.map_cons, ih others taken, Vector.toList_mk]
      · cases fits
  split at made
  · obtain rfl := Option.some.inj made
    exact lists
  · cases made

/-- The entries of a matrix stand in its rows. -/
theorem getElem?_rows (c : Covariance) (i j : Fin c.size) :
    ((c.cells.toList.map Vector.toList)[i.val]?.bind fun row => row[j.val]?) =
      some (c.entry i j) := by
  simp [entry]

end Covariance

namespace CovarianceSource

/-- A checked matrix belongs to a grouping factor of the model, has one row per level of it and a
Cholesky factor. -/
theorem check_eq_ok {name : String} {tree : TermTree} {source : CovarianceSource} {m : Covariance}
    (done : source.check name tree = .ok m) :
    (∃ group ∈ tree.groups, group.factor = name ∧ m.size = group.levels.length) ∧
      ∃ rows, m.cholesky = some rows := by
  unfold check at done
  split at done
  · rename_i first found
    simp only [↓refuse_bind, bind_eq_ok, ite_refuse_eq_ok] at done
    obtain ⟨_, _, _, done⟩ := done
    split at done
    · rename_i matrix made
      simp only [ite_refuse_eq_ok, pure_eq_ok] at done
      obtain ⟨_, definite, _, rfl⟩ := done
      have member := List.mem_filter.mp (List.mem_of_head? found)
      refine ⟨⟨first, member.1, by simpa using member.2, Covariance.size_of_ofRows? made⟩, ?_⟩
      rw [Option.isNone_iff_eq_none] at definite
      exact Option.ne_none_iff_exists'.mp definite
    · simp [refuse_ne_ok] at done
  · simp [refuse_ne_ok] at done

/-- Checked matrices stand under the names of the given ones, each as checked. -/
theorem checkAll_eq_ok {sources : List (String × CovarianceSource)} {tree : TermTree}
    {covariances : List (String × Covariance)} (done : checkAll sources tree = .ok covariances) :
    (∀ name, name ∈ covariances.map Prod.fst ↔ name ∈ sources.map Prod.fst) ∧
      ∀ name m, covariances.lookup name = some m → ∃ source, check name tree source = .ok m := by
  rw [checkAll, mapM_eq_ok] at done
  have steps : List.Forall₂ (fun (given : String × CovarianceSource) made => made.1 = given.1 ∧
      check given.1 tree given.2 = .ok made.2)
      (sources.mergeSort fun a b => a.1 ≤ b.1) covariances := by
    refine done.imp fun given made step => ?_
    simp only [bind_eq_ok, pure_eq_ok] at step
    obtain ⟨m, checked, rfl⟩ := step
    exact ⟨rfl, checked⟩
  refine ⟨fun name => ?_, fun name m found => ?_⟩
  · rw [Entries.keys_of_forall₂ (fun name source m => check name tree source = .ok m) steps]
    exact ((List.mergeSort_perm _ _).map Prod.fst).mem_iff
  · obtain ⟨source, _, checked⟩ := Entries.lookup_of_forall₂
      (fun name source m => check name tree source = .ok m) steps found
    exact ⟨source, checked⟩

end CovarianceSource

end Multilevel

namespace Multilevel.Covariance

open Number (Alike)

/-- Lists whose items are related pair up to related pairs. -/
theorem forall₂_zip {α β γ δ : Type} {r : α → β → Prop} {s : γ → δ → Prop} {as : List α}
    {bs : List β} {cs : List γ} {ds : List δ} (left : List.Forall₂ r as bs)
    (right : List.Forall₂ s cs ds) :
    List.Forall₂ (fun p q => r p.1 q.1 ∧ s p.2 q.2) (as.zip cs) (bs.zip ds) := by
  induction left generalizing cs ds with
  | nil => exact .nil
  | cons first _ ih =>
    cases right with
    | nil => exact .nil
    | cons second rest => exact .cons ⟨first, second⟩ (ih rest)

/-- Sums of products of numbers that count as the same count as the same. -/
theorem sum_alike {pairs pairs' : List (Float × Float)}
    (alike : List.Forall₂ (fun p q => Alike p.1 q.1 ∧ Alike p.2 q.2) pairs pairs')
    {sum sum' : Float} (start : Alike sum sum') :
    Alike (pairs.foldl (fun sum (x, y) => sum + x * y) sum)
      (pairs'.foldl (fun sum (x, y) => sum + x * y) sum') := by
  induction alike generalizing sum sum' with
  | nil => exact start
  | cons first _ ih => exact ih (start.add (first.1.mul first.2))

/-- So do those of lists of such numbers. -/
theorem dot_alike {a a' b b' : List Float} (left : List.Forall₂ Alike a a')
    (right : List.Forall₂ Alike b b') : Alike (dot a b) (dot a' b') :=
  sum_alike (forall₂_zip left right) (Alike.refl _)

/-- Whether two rows of a Cholesky factor have entries that count as the same and one diagonal
entry. -/
structure RowAlike (x y : List Float) : Prop where
  /-- The entries count as the same. -/
  entries : List.Forall₂ Alike x y
  /-- The last ones, on the diagonal, are the same. -/
  diagonal : x.getLastD 1.0 = y.getLastD 1.0

variable {above above' : List (List Float)} {row row' : List Float}

/-- The entries left of the diagonal. -/
theorem left_alike (rows : List.Forall₂ RowAlike above above')
    (cells : List.Forall₂ Alike row row') :
    List.Forall₂ Alike
      ((above.zip row).foldl (fun entries (other, cell) =>
        entries ++ [(cell - dot entries other) * (1.0 / other.getLastD 1.0)]) [])
      ((above'.zip row').foldl (fun entries (other, cell) =>
        entries ++ [(cell - dot entries other) * (1.0 / other.getLastD 1.0)]) []) := by
  refine List.rel_foldl (P := List.Forall₂ Alike) (R := fun p q => RowAlike p.1 q.1 ∧ Alike p.2 q.2)
    ?_ .nil (forall₂_zip rows cells)
  rintro entries entries' alike ⟨other, cell⟩ ⟨other', cell'⟩ ⟨same, number⟩
  refine List.rel_append alike (.cons ?_ .nil)
  dsimp only at same number ⊢
  rw [same.diagonal]
  exact (number.sub (dot_alike alike same.entries)).mul (Alike.refl _)

/-- Numbers that count as the same stand at each place. -/
theorem getD_alike {x y : List Float} (alike : List.Forall₂ Alike x y) (place : Nat)
    (blank : Float) : Alike (x.getD place blank) (y.getD place blank) := by
  induction alike generalizing place with
  | nil => exact Alike.refl _
  | cons first _ ih =>
    cases place with
    | zero => exact first
    | succ place => simpa using ih place

/-- The next rows of Cholesky factors of equal matrices are alike. -/
theorem nextRow_alike (rows : List.Forall₂ RowAlike above above')
    (cells : List.Forall₂ Alike row row') :
    Option.Rel RowAlike (nextRow above row) (nextRow above' row') := by
  have left := left_alike rows cells
  unfold nextRow
  dsimp only
  generalize (above.zip row).foldl _ _ = entries at left ⊢
  generalize (above'.zip row').foldl _ _ = entries' at left ⊢
  have rest : Alike (row.getD entries.length 0.0 - dot entries entries)
      (row'.getD entries'.length 0.0 - dot entries' entries') := by
    rw [left.length_eq]
    exact (getD_alike cells _ _).sub (dot_alike left left)
  generalize row.getD entries.length 0.0 - dot entries entries = u at rest ⊢
  generalize row'.getD entries'.length 0.0 - dot entries' entries' = v at rest ⊢
  by_cases small : u ≤ 0.0
  · rw [if_pos small, if_pos ((rest.le_iff 0.0).mp small)]
    exact .none
  · obtain rfl := rest.eq_of_not_le small
    rw [if_neg small, if_neg small]
    have next : RowAlike (entries ++ [u.sqrt]) (entries' ++ [u.sqrt]) :=
      ⟨List.rel_append left (.cons (Alike.refl _) .nil), by simp⟩
    exact .some next

/-- The rows of Cholesky factors of equal matrices are alike. -/
theorem choleskyRows_alike {rows rows' : List (List Float)}
    (cells : List.Forall₂ (List.Forall₂ Alike) rows rows')
    (built : List.Forall₂ RowAlike above above') :
    Option.Rel (List.Forall₂ RowAlike)
      (rows.foldlM (fun above row => do return above ++ [← nextRow above row]) above)
      (rows'.foldlM (fun above row => do return above ++ [← nextRow above row]) above') := by
  induction cells generalizing above above' with
  | nil => exact .some built
  | @cons row row' _ _ first _ ih =>
    have next := nextRow_alike built first
    rw [List.foldlM_cons, List.foldlM_cons]
    generalize nextRow above row = x at next ⊢
    generalize nextRow above' row' = y at next ⊢
    cases next with
    | none => exact .none
    | some same => exact ih (List.rel_append built (.cons same .nil))

/-- Matrices that compare equal have rows of numbers that count as the same. -/
theorem exists_rows_alike {a b : Covariance} (same : a.same b = true) :
    ∃ cells : Vector (Vector Float a.size) a.size, b = ⟨a.size, cells⟩ ∧
      List.Forall₂ (List.Forall₂ Alike) (a.cells.toList.map Vector.toList)
        (cells.toList.map Vector.toList) := by
  obtain ⟨size, cells⟩ := a
  obtain ⟨size', cells'⟩ := b
  rw [Covariance.same, Bool.and_eq_true, beq_iff_eq] at same
  obtain ⟨count, entries⟩ := same
  dsimp only at count entries
  subst count
  refine ⟨cells', rfl, ?_⟩
  rw [List.forall₂_map_left_iff, List.forall₂_map_right_iff, List.forall₂_iff_zip]
  refine ⟨by simp, fun mem => ?_⟩
  exact Number.forall₂_alike_of_zip (by simp) (List.all_eq_true.mp entries _ mem)

/-- Cholesky factors of matrices with equal entries have entries that count as the same. -/
theorem cholesky_alike {a b : Covariance} (same : a.same b = true) :
    Option.Rel (List.Forall₂ (List.Forall₂ Alike)) a.cholesky b.cholesky := by
  obtain ⟨cells, rfl, rows⟩ := exists_rows_alike same
  have factor : Option.Rel (List.Forall₂ RowAlike)
      (choleskyRows (a.cells.toList.map Vector.toList))
      (choleskyRows (cells.toList.map Vector.toList)) := choleskyRows_alike rows .nil
  unfold cholesky
  dsimp only
  generalize choleskyRows (a.cells.toList.map Vector.toList) = x at factor ⊢
  generalize choleskyRows (cells.toList.map Vector.toList) = y at factor ⊢
  cases factor with
  | none => exact .none
  | some made =>
    refine .some (List.rel_map (fun row row' alike => ?_) made)
    rw [alike.entries.length_eq]
    exact List.rel_append alike.entries (List.forall₂_same.mpr fun _ _ => Alike.refl _)

end Multilevel.Covariance
