import Multilevel.Proofs.Program.Evaluation

/-!
# Accesses to variables

What a run of statements reads and sets, in order (`Statement.accesses`). The accesses follow the
exact meaning: every subscript is evaluated where it stands, and statements behind one that has no
meaning are not run. Whether only elements that were set before are read (`Access.AreSetFirst`) is
decided part by part.
-/
namespace Multilevel

/-- An access to some elements of a variable, or to all of it if there are no subscripts, with what
is found or stored there. -/
inductive Access where
  | read (v : Variable) (places : List Place) (value : Exact)
  | write (v : Variable) (places : List Place) (value : Exact)
  deriving Repr, DecidableEq

namespace Access

/-- The variable that is accessed. -/
def target : Access → Variable
  | read v _ _ | write v _ _ => v

/-- The subscripts of the elements that are accessed. -/
def places : Access → List Place
  | read _ places _ | write _ places _ => places

/-- What is found or stored there. -/
def value : Access → Exact
  | read _ _ value | write _ _ value => value

/-- Whether all elements of a variable that are read were set before, with the value that is found,
given what was accessed earlier. -/
def AreSetFirst (v : Variable) : List Access → List Access → Prop
  | _, [] => True
  | earlier, access :: rest =>
    (∀ places x, access = read v places x → write v places x ∈ earlier) ∧
      AreSetFirst v (earlier ++ [access]) rest

section AreSetFirst

variable {v : Variable} {earlier first second : List Access}

/-- In two lists of accesses, the first ones are earlier for the second ones. -/
theorem areSetFirst_append :
    AreSetFirst v earlier (first ++ second) ↔
      AreSetFirst v earlier first ∧ AreSetFirst v (earlier ++ first) second := by
  induction first generalizing earlier with
  | nil => simp [AreSetFirst]
  | cons access rest ih =>
    rw [List.cons_append, AreSetFirst, AreSetFirst, ih, and_assoc, List.append_assoc,
      List.singleton_append]

/-- Elements that were set before all of the accesses are set first. -/
theorem areSetFirst_of_forall
    (known : ∀ places x, read v places x ∈ first → write v places x ∈ earlier) :
    AreSetFirst v earlier first := by
  induction first generalizing earlier with
  | nil => trivial
  | cons access rest ih =>
    refine ⟨fun places x same => known places x (by rw [same]; exact List.mem_cons_self), ?_⟩
    exact ih fun places x mem =>
      List.mem_append_left _ (known places x (List.mem_cons_of_mem _ mem))

/-- Rounds each of which reads what was set before it or in it. -/
theorem areSetFirst_flatMap_range {round : Nat → List Access} {count : Nat}
    (each : ∀ n < count,
      AreSetFirst v (earlier ++ (List.range n).flatMap round) (round n)) :
    AreSetFirst v earlier ((List.range count).flatMap round) := by
  induction count with
  | zero => trivial
  | succ count ih =>
    rw [List.range_succ, List.flatMap_append, areSetFirst_append]
    refine ⟨ih fun n below => each n (Nat.lt_succ_of_lt below), ?_⟩
    rw [List.flatMap_singleton]
    exact each count (Nat.lt_succ_self count)

/-- Accesses to other variables do not matter. -/
theorem areSetFirst_of_filter {log : List Access} {keep : Access → Bool}
    (kept : ∀ access, access.target = v → keep access = true)
    (filtered : AreSetFirst v (earlier.filter keep) (log.filter keep)) :
    AreSetFirst v earlier log := by
  induction log generalizing earlier with
  | nil => trivial
  | cons access rest ih =>
    by_cases here : keep access = true
    · rw [List.filter_cons_of_pos here] at filtered
      refine ⟨fun places x same => (List.mem_filter.mp (filtered.1 places x same)).1, ih ?_⟩
      rw [List.filter_append, List.filter_cons_of_pos here, List.filter_nil]
      exact filtered.2
    · rw [List.filter_cons_of_neg here] at filtered
      refine ⟨fun places x same => absurd (kept access (by rw [same]; rfl)) here, ih ?_⟩
      rw [List.filter_append, List.filter_cons_of_neg here, List.filter_nil, List.append_nil]
      exact filtered

end AreSetFirst

end Access

namespace Expr

/-- What is read for the value of an expression. -/
def reads (counts : Counts) (values : Values) : Expr → List Access
  | var v => ((values v).map (Access.read v [])).toList
  | counter _ | literal _ | verbatim _ | everything => []
  | binary _ left right => left.reads counts values ++ right.reads counts values
  | grouped inner | transposed inner => inner.reads counts values
  | call _ arguments => arguments.reads counts values
  | subscript (var v) places => places.reads counts values ++ Option.toList (do
      let located ← places.meaning counts values
      return Access.read v located (← (← values v).select located))
  | subscript array places => array.reads counts values ++ places.reads counts values

/-- What is accessed when a value is stored at a target. -/
def stores (counts : Counts) (values : Values) (x : Exact) : Expr → List Access
  | var v => [.write v [] x]
  | subscript (var v) places => places.reads counts values ++
      ((places.meaning counts values).map fun located => Access.write v located x).toList
  | _ => []

end Expr

/-- What is read for the sizes of a type. -/
def VariableType.reads (counts : Counts) (values : Values) : VariableType → List Access
  | int _ | real _ => []
  | vector _ size | ints size _ | correlationFactor size | correlations size =>
    size.reads counts values
  | matrix rows columns => rows.reads counts values ++ columns.reads counts values

namespace Statement

/-- What is accessed when the value of an expression is stored at a target. -/
def moves (counts : Counts) (values : Values) (target e : Expr) : List Access :=
  e.reads counts values ++ (e.value? counts values).elim [] fun x => target.stores counts values x

/-- What a statement accesses when it is run. -/
def accesses (blank : Rat) : Statement → Counts → Values → List Access
  | skip, _, _ | comment _, _, _ => []
  | seq first second, counts, values => first.accesses blank counts values ++
      (first.run blank counts values).elim [] (second.accesses blank counts)
  | declare type _ none _, counts, values => type.reads counts values
  | declare type v (some e) _, counts, values =>
    type.reads counts values ++ moves counts values (.var v) e
  | assign target e, counts, values => moves counts values target e
  | add target e, counts, values => moves counts values target (target + e)
  | increment density, counts, values => density.reads counts values
  -- A round starts from what the rounds before it have left.
  | forEach counter last body, counts, values => last.reads counts values ++
      (List.range ((last.int? counts values).elim 0 Int.toNat)).flatMap fun k =>
        ((forEach counter (Expr.ofNat k) body).run blank counts values).elim []
          (body.accesses blank (Function.update counts counter (some ((k + 1 : Nat) : Int))))
  | .unless flag body, counts, values => (Expr.var flag).reads counts values ++
      if values flag = some (.int 0) then body.accesses blank counts values else []
  | redraw v _ _ draw, counts, values =>
    (Expr.var v).reads counts values ++ draw.reads counts values

end Statement

/-- An expression reads nothing but what it uses. -/
theorem Expr.target_of_mem_reads {counts : Counts} {values : Values} {e : Expr} {access : Access}
    (mem : access ∈ e.reads counts values) : access.target ∈ e.uses := by
  fun_induction Expr.reads counts values e with
  | case1 v =>
    obtain ⟨x, _, rfl⟩ := Option.map_eq_some_iff.mp (Option.mem_toList.mp mem)
    exact List.mem_singleton_self v
  | case2 | case3 | case4 | case5 => cases mem
  | case6 _ left right first second =>
    rw [uses, List.mem_append]
    exact (List.mem_append.mp mem).imp first second
  | case7 _ ih | case8 _ ih | case9 _ _ ih => exact ih mem
  | case10 v places ih =>
    rw [uses, List.mem_append]
    rcases List.mem_append.mp mem with located | here
    · exact .inr (ih located)
    · simp only [Option.mem_toList, Option.bind_eq_bind, Option.bind_eq_some_iff, Option.pure_def,
        Option.some.injEq] at here
      obtain ⟨_, _, _, _, _, _, rfl⟩ := here
      exact .inl (List.mem_singleton_self v)
  | case11 array places _ first second =>
    rw [uses, List.mem_append]
    exact (List.mem_append.mp mem).imp first second

/-- Storing a value accesses nothing but what the target uses. -/
theorem Expr.target_of_mem_stores {counts : Counts} {values : Values} {x : Exact} {target : Expr}
    {access : Access} (mem : access ∈ target.stores counts values x) :
    access.target ∈ target.uses := by
  unfold stores at mem
  split at mem
  · obtain rfl := List.mem_singleton.mp mem
    exact List.mem_singleton_self _
  · rw [uses, List.mem_append]
    rcases List.mem_append.mp mem with located | here
    · exact .inr (target_of_mem_reads located)
    · obtain ⟨_, _, rfl⟩ := Option.map_eq_some_iff.mp (Option.mem_toList.mp here)
      exact .inl (List.mem_singleton_self _)
  · cases mem

/-- The elements of an array are read behind their subscripts. -/
theorem Expr.reads_subscript {counts : Counts} {values : Values} {v : Variable} {place : Expr}
    {located : List Place} {x z : Exact} (holds : values v = some x)
    (places : place.meaning counts values = some located) (selected : x.select located = some z) :
    (Expr.subscript v place).reads counts values =
      place.reads counts values ++ [.read v located z] := by
  rw [reads, places, holds]
  show _ ++ Option.toList (do return Access.read v located (← x.select located)) = _
  rw [selected]
  rfl

/-- The elements of an array are set behind their subscripts. -/
theorem Expr.stores_subscript {counts : Counts} {values : Values} {v : Variable} {place : Expr}
    {located : List Place} (x : Exact) (places : place.meaning counts values = some located) :
    (Expr.subscript v place).stores counts values x =
      place.reads counts values ++ [.write v located x] := by
  rw [stores, places]
  rfl

namespace Statement

variable {blank : Rat} {counts : Counts} {values : Values} {access : Access}

/-- Moving a value reads the expression before it sets the target. -/
theorem moves_eq {target e : Expr} {x : Exact} (evaluates : e.Evaluates counts values x) :
    moves counts values target e =
      e.reads counts values ++ target.stores counts values x := by
  rw [moves, evaluates.value?]
  rfl

/-- Moving a value accesses nothing but what the target and the expression use. -/
theorem target_of_mem_moves {target e : Expr} (mem : access ∈ moves counts values target e) :
    access.target ∈ target.uses ++ e.uses := by
  rw [List.mem_append]
  rcases List.mem_append.mp mem with found | stored
  · exact .inr (Expr.target_of_mem_reads found)
  · cases value : e.value? counts values with
    | none =>
      rw [value] at stored
      cases stored
    | some x =>
      rw [value] at stored
      exact .inl (Expr.target_of_mem_stores stored)

/-- Adding to a target accesses nothing but what the target and the expression use. -/
theorem target_of_mem_accesses_add {target e : Expr}
    (mem : access ∈ (add target e).accesses blank counts values) :
    access.target ∈ target.uses ++ e.uses := by
  have both : access.target ∈ target.uses ++ (target.uses ++ e.uses) := target_of_mem_moves mem
  simp only [List.mem_append] at both ⊢
  tauto

/-- What statements access, some single statement of them accesses. -/
theorem exists_of_mem_accesses {statements : List Statement}
    (mem : access ∈ (ofList statements).accesses blank counts values) :
    ∃ statement ∈ statements, ∃ now, access ∈ statement.accesses blank counts now := by
  induction statements generalizing values with
  | nil => cases mem
  | cons statement rest ih =>
    rcases List.mem_append.mp mem with here | later
    · exact ⟨statement, List.mem_cons_self, values, here⟩
    · cases ran : statement.run blank counts values with
      | none =>
        rw [ran] at later
        cases later
      | some after =>
        rw [ran] at later
        obtain ⟨other, listed, found⟩ := ih later
        exact ⟨other, List.mem_cons_of_mem _ listed, found⟩

/-- The accesses of a list of statements come one statement after the other. -/
theorem accesses_ofList_cons {statement : Statement} {rest : List Statement} {after : Values}
    (ran : statement.run blank counts values = some after) :
    (ofList (statement :: rest)).accesses blank counts values =
      statement.accesses blank counts values ++ (ofList rest).accesses blank counts after := by
  show _ ++ (statement.run blank counts values).elim [] _ = _
  rw [ran]
  rfl

/-- The accesses of two lists come one after the other. -/
theorem accesses_ofList_append {first second : List Statement} {after : Values}
    (ran : (ofList first).run blank counts values = some after) :
    (ofList (first ++ second)).accesses blank counts values =
      (ofList first).accesses blank counts values ++
        (ofList second).accesses blank counts after := by
  induction first generalizing values with
  | nil =>
    obtain rfl := Option.some.inj ran
    rfl
  | cons statement rest ih =>
    rw [run_ofList_cons, Option.bind_eq_some_iff] at ran
    obtain ⟨middle, one, others⟩ := ran
    rw [List.cons_append, accesses_ofList_cons one, accesses_ofList_cons one, ih others,
      List.append_assoc]

/-- The accesses of a single statement are its own. -/
theorem accesses_ofList_singleton (statement : Statement) :
    (ofList [statement]).accesses blank counts values =
      statement.accesses blank counts values := by
  show _ ++ (statement.run blank counts values).elim [] _ = _
  cases statement.run blank counts values <;> exact List.append_nil _

/-- The accesses of a loop come round by round. -/
theorem accesses_forEach {counter : Counter} {last : Expr} {body : Statement} {n : Nat}
    (evaluates : last.Evaluates counts values (.int n)) (after : Nat → Values)
    (start : after 0 = values)
    (round : ∀ k < n, body.run blank (Function.update counts counter (some ((k + 1 : Nat) : Int)))
      (after k) = some (after (k + 1))) :
    (forEach counter last body).accesses blank counts values =
      last.reads counts values ++ (List.range n).flatMap fun k =>
        body.accesses blank (Function.update counts counter (some ((k + 1 : Nat) : Int)))
          (after k) := by
  -- A round starts from the values that are given for it.
  have before {k : Nat} (below : k < n) :
      (forEach counter (Expr.ofNat k) body).run blank counts values = some (after k) :=
    run_forEach (.ofNat k) after start fun j inside => round j (by omega)
  show _ ++ (List.range ((last.int? counts values).elim 0 Int.toNat)).flatMap _ = _
  rw [evaluates.int?]
  refine congrArg _ (List.flatMap_congr fun k mem => ?_)
  rw [before (List.mem_range.mp mem)]
  rfl

end Statement

end Multilevel
