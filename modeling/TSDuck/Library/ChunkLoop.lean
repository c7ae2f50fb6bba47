import Mathlib.Data.List.Basic
import Mathlib.Algebra.Order.Group.Nat

/-!
# Loops over the chunks of a list

`run` processes the first values of a list, one chunk of a fixed size after the other, as long as
more than some number of values remain.

When each step has an inverse which goes through the same states, the loop has one as well, whatever
follows the values which are processed (`run_inverse`).
-/

namespace ChunkLoop

universe u v w

variable {Value : Type u} {State : Type v} {Failure : Type w}

theorem bind_eq_ok {First Second : Type*} {result : Except Failure First}
    {next : First → Except Failure Second} {last : Second} :
    result.bind next = .ok last ↔ ∃ first, result = .ok first ∧ next first = .ok last := by
  cases result with
  | error failure => simp [Except.bind]
  | ok first => simp [Except.bind]

theorem map_eq_ok {First Second : Type*} {result : Except Failure First} {next : First → Second}
    {last : Second} :
    result.map next = .ok last ↔ ∃ first, result = .ok first ∧ next first = last := by
  cases result with
  | error failure => simp [Except.map]
  | ok first => simp [Except.map]

abbrev Step (Value : Type u) (State : Type v) (Failure : Type w) :=
  State → List Value → Except Failure (List Value × State)

/-- What a loop gives. -/
structure Result (Value : Type u) (State : Type v) where
  done : List Value
  state : State
  rest : List Value

def run {size : ℕ} (hsize : 0 < size) (bound : ℕ) (step : Step Value State Failure) (state : State)
    (data : List Value) : Except Failure (Result Value State) :=
  if bound < data.length then
    (step state (data.take size)).bind fun first ↦
      (run hsize bound step first.2 (data.drop size)).map fun result ↦
        { result with done := first.1 ++ result.done }
  else .ok { done := [], state := state, rest := data }
termination_by data.length
decreasing_by
  rw [List.length_drop]
  omega

/-- The back step gives the chunk and the next state again. -/
def Inverse (size : ℕ) (valid : State → Prop) (step back : Step Value State Failure) : Prop :=
  ∀ ⦃state chunk out next⦄, valid state → chunk.length = size → step state chunk = .ok (out, next) →
    out.length = size ∧ valid next ∧ back state out = .ok (chunk, next)

/-- No chunk is shorter than the others. -/
def Full (size bound count : ℕ) : Prop :=
  ∀ chunks, bound < count - chunks * size → size ≤ count - chunks * size

theorem full_of_le {size bound : ℕ} (hle : size ≤ bound + 1) (count : ℕ) : Full size bound count :=
  fun _ hlt ↦ hle.trans hlt

theorem full_of_dvd {size count : ℕ} (hdvd : size ∣ count) : Full size 0 count := by
  intro chunks hlt
  obtain ⟨total, rfl⟩ := hdvd
  rw [Nat.mul_comm chunks, ← Nat.mul_sub] at hlt ⊢
  exact Nat.le_mul_of_pos_right _ (Nat.pos_of_mul_pos_left hlt)

variable {size bound : ℕ} {hsize : 0 < size} {step back : Step Value State Failure} {state : State}
  {data : List Value} {result : Result Value State}

theorem Full.next {count : ℕ} (hfull : Full size bound count) : Full size bound (count - size) := by
  intro chunks hlt
  have hsub : count - size - chunks * size = count - (chunks + 1) * size := by
    rw [Nat.succ_mul, Nat.sub_sub, Nat.add_comm size]
  rw [hsub] at hlt ⊢
  exact hfull _ hlt

theorem run_of_le (hle : data.length ≤ bound) :
    run hsize bound step state data = .ok { done := [], state := state, rest := data } := by
  rw [run, if_neg (Nat.not_lt.mpr hle)]

theorem run_of_lt (hlt : bound < data.length) :
    run hsize bound step state data = (step state (data.take size)).bind fun first ↦
      (run hsize bound step first.2 (data.drop size)).map fun result ↦
        { result with done := first.1 ++ result.done } := by
  rw [run, if_pos hlt]

/-- One iteration. -/
theorem run_eq_ok_iff (hlt : bound < data.length) :
    run hsize bound step state data = .ok result ↔ ∃ out next others,
      step state (data.take size) = .ok (out, next) ∧
        run hsize bound step next (data.drop size) = .ok others ∧
        result = { others with done := out ++ others.done } := by
  rw [run_of_lt hlt, bind_eq_ok]
  constructor
  · rintro ⟨⟨out, next⟩, hstep, hrest⟩
    obtain ⟨others, hothers, rfl⟩ := map_eq_ok.mp hrest
    exact ⟨out, next, others, hstep, hothers, rfl⟩
  · rintro ⟨out, next, others, hstep, hothers, rfl⟩
    exact ⟨(out, next), hstep, map_eq_ok.mpr ⟨others, hothers, rfl⟩⟩

/-- The loop stops at most one chunk before the bound. -/
theorem length_rest (hrun : run hsize bound step state data = .ok result) :
    result.rest.length ≤ bound ∧ (bound < data.length → bound < result.rest.length + size) := by
  induction hlength : data.length using Nat.strong_induction_on generalizing state data result with
  | _ length ih =>
    by_cases hlt : bound < data.length
    · obtain ⟨out, next, others, -, hothers, rfl⟩ := (run_eq_ok_iff hlt).mp hrun
      have hdrop : (data.drop size).length < length := by
        rw [List.length_drop]
        omega
      obtain ⟨hle, hlast⟩ := ih _ hdrop hothers rfl
      refine ⟨hle, fun _ ↦ ?_⟩
      by_cases hmore : bound < (data.drop size).length
      · exact hlast hmore
      · rw [run_of_le (Nat.not_lt.mp hmore)] at hothers
        cases hothers
        rw [List.length_drop]
        omega
    · rw [run_of_le (Nat.not_lt.mp hlt)] at hrun
      cases hrun
      exact ⟨Nat.not_lt.mp hlt, fun hless ↦ absurd (hlength ▸ hless) hlt⟩

/-- The values are given back from those which replace them. -/
theorem run_inverse {valid : State → Prop} (hinverse : Inverse size valid step back)
    (hvalid : valid state) (hfull : Full size bound data.length)
    (hrun : run hsize bound step state data = .ok result) :
    ∃ first, data = first ++ result.rest ∧ result.done.length = first.length ∧ valid result.state ∧
      ∀ tail : List Value, tail.length = result.rest.length →
        run hsize bound back state (result.done ++ tail) =
          .ok { done := first, state := result.state, rest := tail } := by
  induction hlength : data.length using Nat.strong_induction_on generalizing state data result with
  | _ length ih =>
    by_cases hlt : bound < data.length
    · obtain ⟨out, next, others, hstep, hothers, rfl⟩ := (run_eq_ok_iff hlt).mp hrun
      have hchunk : (data.take size).length = size := by
        rw [List.length_take, Nat.min_eq_left]
        simpa using hfull 0 (by simpa using hlt)
      obtain ⟨hout, hnext, hback⟩ := hinverse hvalid hchunk hstep
      have hdrop : (data.drop size).length < length := by
        rw [List.length_drop]
        omega
      have hrest : Full size bound (data.drop size).length := by
        rw [List.length_drop]
        exact hfull.next
      obtain ⟨first, hfirst, hdone, hlast, hgiven⟩ := ih _ hdrop hnext hrest hothers rfl
      refine ⟨data.take size ++ first, ?_, ?_, hlast, fun tail htail ↦ ?_⟩
      · rw [List.append_assoc, ← hfirst, List.take_append_drop]
      · rw [List.length_append, List.length_append, hout, hchunk, hdone]
      · have hmore : bound < (out ++ others.done ++ tail).length := by
          have hsplit := congrArg List.length hfirst
          rw [List.length_drop, List.length_append] at hsplit
          simp only [List.length_append, hout, hdone, htail]
          rw [List.length_take] at hchunk
          omega
        rw [List.append_assoc] at hmore ⊢
        refine (run_eq_ok_iff hmore).mpr ⟨data.take size, next,
          { done := first, state := others.state, rest := tail }, ?_, ?_, rfl⟩
        · rw [List.take_left' hout]
          exact hback
        · rw [List.drop_left' hout]
          exact hgiven tail htail
    · have hle := Nat.not_lt.mp hlt
      rw [run_of_le hle] at hrun
      cases hrun
      refine ⟨[], rfl, rfl, hvalid, fun tail htail ↦ ?_⟩
      exact run_of_le (htail.trans_le hle)

/-- A loop continues the one which stops before. -/
theorem run_run {before : ℕ} (hbefore : bound ≤ before) :
    run hsize bound step state data = (run hsize before step state data).bind fun first ↦
      (run hsize bound step first.state first.rest).map fun result ↦
        { result with done := first.done ++ result.done } := by
  induction hlength : data.length using Nat.strong_induction_on generalizing state data with
  | _ length ih =>
    by_cases hlt : before < data.length
    · have hdrop : (data.drop size).length < length := by
        rw [List.length_drop]
        omega
      rw [run_of_lt hlt, run_of_lt (hbefore.trans_lt hlt)]
      cases hstep : step state (data.take size) with
      | error failure => rfl
      | ok first =>
        simp only [Except.bind]
        rw [ih _ hdrop rfl]
        cases run hsize before step first.2 (data.drop size) with
        | error failure => rfl
        | ok others =>
          simp only [Except.bind, Except.map]
          cases run hsize bound step others.state others.rest with
          | error failure => rfl
          | ok last => simp only [List.append_assoc]
    · rw [run_of_le (Nat.not_lt.mp hlt)]
      simp only [Except.bind, List.nil_append]
      cases run hsize bound step state data <;> rfl

theorem run_of_run {before : ℕ} (hbefore : bound ≤ before)
    (hrun : run hsize before step state data = .ok result) (hrest : result.rest.length ≤ bound) :
    run hsize bound step state data = .ok result := by
  rw [run_run hbefore, hrun]
  simp only [Except.bind]
  rw [run_of_le hrest]
  simp only [Except.map, List.append_nil]

theorem run_last (hlt : bound < data.length) (hrun : run hsize bound step state data = .ok result) :
    ∃ front out, run hsize (bound + size) step state data = .ok front ∧
      (bound < front.rest.length ∧ front.rest.length ≤ bound + size) ∧
      step front.state (front.rest.take size) = .ok (out, result.state) ∧
      result.done = front.done ++ out ∧ result.rest = front.rest.drop size := by
  rw [run_run (Nat.le_add_right bound size), bind_eq_ok] at hrun
  obtain ⟨front, hfront, hlast⟩ := hrun
  obtain ⟨hle, hmore⟩ := length_rest hfront
  have hrest : bound < front.rest.length := by
    by_cases hlong : bound + size < data.length
    · exact Nat.lt_of_add_lt_add_right (hmore hlong)
    · rw [run_of_le (Nat.not_lt.mp hlong)] at hfront
      cases hfront
      exact hlt
  obtain ⟨last, hone, rfl⟩ := map_eq_ok.mp hlast
  obtain ⟨out, next, others, hstep, hothers, rfl⟩ := (run_eq_ok_iff hrest).mp hone
  have hdrop : (front.rest.drop size).length ≤ bound := by
    rw [List.length_drop]
    omega
  rw [run_of_le hdrop] at hothers
  cases hothers
  exact ⟨front, out, hfront, ⟨hrest, hle⟩, hstep, by rw [List.append_nil], rfl⟩

/-- Without short chunks, the size divides what is processed. -/
theorem dvd_length_done {valid : State → Prop} (hinverse : Inverse size valid step back)
    (hvalid : valid state) (hfull : Full size bound data.length)
    (hrun : run hsize bound step state data = .ok result) : size ∣ result.done.length := by
  induction hlength : data.length using Nat.strong_induction_on generalizing state data result with
  | _ length ih =>
    by_cases hlt : bound < data.length
    · obtain ⟨out, next, others, hstep, hothers, rfl⟩ := (run_eq_ok_iff hlt).mp hrun
      have hchunk : (data.take size).length = size := by
        rw [List.length_take, Nat.min_eq_left]
        simpa using hfull 0 (by simpa using hlt)
      obtain ⟨hout, hnext, -⟩ := hinverse hvalid hchunk hstep
      have hdrop : (data.drop size).length < length := by
        rw [List.length_drop]
        omega
      have hrest : Full size bound (data.drop size).length := by
        rw [List.length_drop]
        exact hfull.next
      rw [List.length_append, hout]
      exact Nat.dvd_add (Nat.dvd_refl size) (ih _ hdrop hnext hrest hothers rfl)
    · rw [run_of_le (Nat.not_lt.mp hlt)] at hrun
      cases hrun
      exact Nat.dvd_zero size

end ChunkLoop
