import Rulebook.Run

/-!
# How runs end

Serial numbers only tell apart values that are made anew, so what a run does is described for every
number they may be counted from, and the world it leaves only up to the next one. A description
relates the result of a run to the world it leaves; descriptions of the parts of a run give one of
the whole.
-/

namespace Rulebook

/-- The world with serial numbers counted from elsewhere. -/
def World.withSerial (world : World) (serial : Nat) : World := { world with serial }

/-- The world with another frame of variables. -/
def World.withFrame (world : World) (frame : Table String Value) : World := { world with frame }

namespace Run

variable {α β : Type} {first run : Run α} {next : α → Run β} {world after : World}

/-- Wherever its serial numbers are counted from, a run that begins in a world ends as told. -/
def Ends (run : Run α) (world : World) (post : Except Fault α → World → Prop) : Prop :=
  ∀ serial, ∃ result after later,
    run.outcome (world.withSerial serial) = (result, after.withSerial later) ∧ post result after

/-- A run succeeds, with a value and a world as told. -/
def Gives (run : Run α) (world : World) (post : α → World → Prop) : Prop :=
  run.Ends world fun result after => ∃ value, result = .ok value ∧ post value after

/-- A run fails, with a fault and a world as told. -/
def Fails (run : Run α) (world : World) (post : Fault → World → Prop) : Prop :=
  run.Ends world fun result after => ∃ fault, result = .error fault ∧ post fault after

theorem Ends.mono {post post' : Except Fault α → World → Prop} (hrun : run.Ends world post)
    (himp : ∀ result after, post result after → post' result after) : run.Ends world post' := by
  intro serial
  obtain ⟨result, after, later, houtcome, hpost⟩ := hrun serial
  exact ⟨result, after, later, houtcome, himp result after hpost⟩

theorem Gives.mono {post post' : α → World → Prop} (hrun : run.Gives world post)
    (himp : ∀ value after, post value after → post' value after) : run.Gives world post' := by
  refine Ends.mono hrun ?_
  rintro result after ⟨value, hresult, hpost⟩
  exact ⟨value, hresult, himp value after hpost⟩

theorem Fails.mono {post post' : Fault → World → Prop} (hrun : run.Fails world post)
    (himp : ∀ fault after, post fault after → post' fault after) : run.Fails world post' := by
  refine Ends.mono hrun ?_
  rintro result after ⟨fault, hresult, hpost⟩
  exact ⟨fault, hresult, himp fault after hpost⟩

/-- A run gives one value, so what is told of its value for several reasons holds of it at once. -/
theorem Gives.all {ι : Type} {reason : ι → Prop} {mid : α → World → Prop} {post : ι → α → Prop}
    (hrun : run.Gives world mid)
    (hall : ∀ index, reason index → run.Gives world fun value _ => post index value) :
    run.Gives world fun value after =>
      mid value after ∧ ∀ index, reason index → post index value := by
  intro serial
  obtain ⟨_, after, later, houtcome, value, rfl, hmid⟩ := hrun serial
  refine ⟨.ok value, after, later, houtcome, value, rfl, hmid, fun index hreason => ?_⟩
  obtain ⟨_, _, _, houtcome', other, rfl, hpost⟩ := hall index hreason serial
  have hvalue := congrArg Prod.fst (houtcome.symm.trans houtcome')
  cases hvalue
  exact hpost

/-! ## One part after another -/

theorem outcome_bind_ok {value : α} (hfirst : first.outcome world = (.ok value, after)) :
    (first >>= next).outcome world = (next value).outcome after := by
  rw [outcome_bind, hfirst]

/-- What succeeds in two parts succeeds in each. -/
theorem bind_ok {value : β} {last : World}
    (houtcome : (first >>= next).outcome world = (.ok value, last)) :
    ∃ middle after, first.outcome world = (.ok middle, after) ∧
      (next middle).outcome after = (.ok value, last) := by
  rw [outcome_bind] at houtcome
  split at houtcome
  next middle after hfirst => exact ⟨middle, after, hfirst, houtcome⟩
  next => cases houtcome

theorem Ends.bind {mid : Except Fault α → World → Prop} {post : Except Fault β → World → Prop}
    (hfirst : first.Ends world mid)
    (hnext : ∀ value between, mid (.ok value) between → (next value).Ends between post)
    (hfault : ∀ fault between, mid (.error fault) between → post (.error fault) between) :
    (first >>= next).Ends world post := by
  intro serial
  obtain ⟨result, between, later, houtcome, hmid⟩ := hfirst serial
  rw [outcome_bind, houtcome]
  cases result with
  | ok value => exact hnext value between hmid later
  | error fault => exact ⟨_, _, _, rfl, hfault fault between hmid⟩

theorem Gives.bind {mid : α → World → Prop} {post : Except Fault β → World → Prop}
    (hfirst : first.Gives world mid)
    (hnext : ∀ value between, mid value between → (next value).Ends between post) :
    (first >>= next).Ends world post := by
  refine Ends.bind hfirst ?_ ?_
  · rintro value between ⟨_, heq, hmid⟩
    cases heq
    exact hnext value between hmid
  · rintro fault between ⟨_, heq, _⟩
    cases heq

theorem Fails.bind {post : Fault → World → Prop} (hfirst : first.Fails world post) :
    (first >>= next).Fails world post := by
  refine Ends.bind hfirst ?_ ?_
  · rintro value between ⟨_, heq, _⟩
    cases heq
  · rintro fault between ⟨_, heq, hpost⟩
    cases heq
    exact ⟨fault, rfl, hpost⟩

/-- A part that only looks at the world is as good as what it sees. -/
theorem Ends.look {post : Except Fault β → World → Prop} (value : α)
    (hlook : ∀ serial, first.outcome (world.withSerial serial) =
      (.ok value, world.withSerial serial))
    (hnext : (next value).Ends world post) : (first >>= next).Ends world post := by
  intro serial
  rw [outcome_bind_ok (hlook serial)]
  exact hnext serial

/-- A part that only changes the world leads to the changed one. -/
theorem Ends.change {post : Except Fault β → World → Prop} (value : α) (after : World)
    (hchange : ∀ serial, first.outcome (world.withSerial serial) =
      (.ok value, after.withSerial serial))
    (hnext : (next value).Ends after post) : (first >>= next).Ends world post := by
  intro serial
  rw [outcome_bind_ok (hchange serial)]
  exact hnext serial

theorem Ends.pure {post : Except Fault α → World → Prop} {value : α}
    (hpost : post (.ok value) world) : (Pure.pure value : Run α).Ends world post :=
  fun serial => ⟨_, _, serial, rfl, hpost⟩

theorem Gives.pure {post : α → World → Prop} {value : α} (hpost : post value world) :
    (Pure.pure value : Run α).Gives world post :=
  Ends.pure ⟨value, rfl, hpost⟩

theorem Fails.fail {post : Fault → World → Prop} {fault : Fault} (hpost : post fault world) :
    (Run.fail fault : Run α).Fails world post :=
  fun serial => ⟨_, _, serial, rfl, fault, rfl, hpost⟩

theorem Ends.fresh {post : Except Fault β → World → Prop} {next : Nat → Run β}
    (hnext : ∀ serial, (next serial).Ends world post) : (fresh >>= next).Ends world post := by
  intro serial
  rw [outcome_bind, outcome_fresh]
  exact hnext serial (serial + 1)

theorem mapM_look {first : α → Run β} (seen : α → β)
    (hlook : ∀ value, (first value).outcome world = (.ok (seen value), world))
    (values : List α) : (values.mapM first).outcome world = (.ok (values.map seen), world) := by
  induction values with
  | nil => rfl
  | cons value rest ih =>
      rw [List.mapM_cons, outcome_bind_ok (hlook value), outcome_bind_ok ih]
      rfl

theorem Ends.observe {post : Except Fault α → World → Prop} (hrun : run.Ends world post) :
    run.observe.Gives world post := by
  intro serial
  obtain ⟨result, after, later, houtcome, hpost⟩ := hrun serial
  refine ⟨.ok result, after, later, ?_, result, rfl, hpost⟩
  rw [outcome_observe, houtcome]

end Run

end Rulebook
