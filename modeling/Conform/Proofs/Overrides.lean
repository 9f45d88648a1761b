import Conform.Config
import Mathlib.Tactic.Lemma

/-!
# Overriding settings

Two variables of the environment override the settings, the depth before the reporting.  What each
of them says is known before any setting is touched (`Config.depthSaid`, `Config.reportingSaid`).
The step of a variable stores what the variable says, or fails and stores nothing
(`Config.Performs`); a step that fails takes back nothing that the step before it has stored.

So settings do not always survive an override that fails (`Config.not_untouched_of_failed`).  They
do except for the depth, and the depth does unless its own variable is well formed
(`Config.override_eq_error_iff`).
-/

namespace Conform.Config

/-! ## What variables say -/

/-- What the variable of the depth says, if it is set. -/
def depthSaid (lookup : String → Option String) : Option (Except Misconfiguration Nat) :=
  (lookup depthVariable).map fun text =>
    (parseCount (Text.trim text.toList)).mapError (.malformedCount depthVariable text)

/-- What the variable of the reporting says, if it is set. -/
def reportingSaid (lookup : String → Option String) :
    Option (Except Misconfiguration UnionErrors) :=
  (lookup reportingVariable).map UnionErrors.parse

/-- Settings with another depth. -/
def withDepth (depth : Nat) (config : Config) : Config := { config with maxDepth := depth }

/-- Settings with another reporting. -/
def withReporting (reporting : UnionErrors) (config : Config) : Config :=
  { config with unionErrors := reporting }

/-! ## Steps -/

section Steps

variable {α : Type} {store : α → Config → Config} {config after : Config}

/-- What becomes of settings when a variable is followed: they stay as they are when it is not set,
and hold the value that it gives when it gives one. -/
inductive Follows (store : α → Config → Config) (config : Config) :
    Option (Except Misconfiguration α) → Config → Prop where
  | unset : Follows store config none config
  | given (value : α) : Follows store config (some (.ok value)) (store value config)

/-- A step follows what is said, or fails with the fault of it and leaves the settings alone. -/
def Performs (step : Change Unit) (said : Option (Except Misconfiguration α))
    (store : α → Config → Config) : Prop :=
  ∀ config outcome after, step.run config = (outcome, after) ↔
    (outcome = .ok () ∧ Follows store config said after) ∨
      ∃ fault, outcome = .error fault ∧ said = some (.error fault) ∧ after = config

lemma follows_unset_iff : Follows store config none after ↔ after = config := by
  constructor
  · rintro ⟨⟩
    rfl
  · rintro rfl
    exact .unset

lemma follows_given_iff {value : α} :
    Follows store config (some (.ok value)) after ↔ after = store value config := by
  constructor
  · rintro ⟨⟩
    rfl
  · rintro rfl
    exact .given value

lemma performs_unset : Performs (pure ()) none store := by
  intro config outcome after
  have hrun : (pure () : Change Unit).run config = (.ok (), config) := rfl
  rw [hrun, Prod.mk.injEq, follows_unset_iff, eq_comm, @eq_comm _ config]
  simp

lemma performs_given (store : α → Config → Config) (value : α) :
    Performs (modify (store value)) (some (.ok value)) store := by
  intro config outcome after
  have hrun : (modify (store value) : Change Unit).run config = (.ok (), store value config) := rfl
  rw [hrun, Prod.mk.injEq, follows_given_iff, eq_comm, @eq_comm _ (store value config)]
  simp

lemma performs_malformed (fault : Misconfiguration) :
    Performs (throw fault) (some (.error fault)) store := by
  intro config outcome after
  have hrun : (throw fault : Change Unit).run config = (.error fault, config) := rfl
  have hnever : ¬ Follows store config (some (.error fault)) after := by rintro ⟨⟩
  rw [hrun, Prod.mk.injEq, eq_comm, @eq_comm _ config]
  constructor
  · rintro ⟨houtcome, hafter⟩
    exact .inr ⟨fault, houtcome, rfl, hafter⟩
  · rintro (⟨-, hfollows⟩ | ⟨_, houtcome, ⟨⟩, hafter⟩)
    · exact absurd hfollows hnever
    · exact ⟨houtcome, hafter⟩

end Steps

/-- The step of the depth. -/
def depthStep (lookup : String → Option String) : Change Unit :=
  match lookup depthVariable with
  | some text => setDepth text
  | none => pure ()

/-- The step of the reporting. -/
def reportingStep (lookup : String → Option String) : Change Unit :=
  match lookup reportingVariable with
  | some text => setReporting text
  | none => pure ()

lemma override_eq_steps (lookup : String → Option String) :
    override lookup = depthStep lookup >>= fun _ => reportingStep lookup := by
  unfold override depthStep reportingStep
  cases lookup depthVariable with
  | none =>
    rw [pure_bind]
    cases lookup reportingVariable with
    | none => rfl
    | some text => rfl
  | some text =>
    cases lookup reportingVariable with
    | none => rfl
    | some text => rfl

lemma performs_depthStep (lookup : String → Option String) :
    Performs (depthStep lookup) (depthSaid lookup) withDepth := by
  rw [depthStep, depthSaid]
  cases lookup depthVariable with
  | none => exact performs_unset
  | some text =>
    rw [Option.map_some]
    dsimp only
    rw [setDepth]
    cases parseCount (Text.trim text.toList) with
    | ok depth => exact performs_given withDepth depth
    | error fault => exact performs_malformed _

lemma performs_reportingStep (lookup : String → Option String) :
    Performs (reportingStep lookup) (reportingSaid lookup) withReporting := by
  rw [reportingStep, reportingSaid]
  cases lookup reportingVariable with
  | none => exact performs_unset
  | some text =>
    rw [Option.map_some]
    dsimp only
    rw [setReporting]
    cases UnionErrors.parse text with
    | ok reporting => exact performs_given withReporting reporting
    | error fault => exact performs_malformed fault

/-! ## Runs -/

section Bind

variable {first second : Change Unit} {config middle : Config}

lemma run_bind_of_ok (h : first.run config = (.ok (), middle)) :
    (first >>= fun _ => second).run config = second.run middle := by
  show ExceptT.bindCont (fun _ => second) (first.run config).1 (first.run config).2 = _
  rw [h]
  rfl

/-- A step that fails ends the run, with the settings as the step leaves them. -/
lemma run_bind_of_error {fault : Misconfiguration}
    (h : first.run config = (.error fault, middle)) :
    (first >>= fun _ => second).run config = (.error fault, middle) := by
  show ExceptT.bindCont (fun _ => second) (first.run config).1 (first.run config).2 = _
  rw [h]
  rfl

end Bind

variable {lookup : String → Option String} {config : Config}

lemma run_override_of_malformed {fault : Misconfiguration}
    (h : depthSaid lookup = some (.error fault)) :
    (override lookup).run config = (.error fault, config) := by
  rw [override_eq_steps]
  apply run_bind_of_error
  exact (performs_depthStep lookup config _ _).2 (.inr ⟨fault, rfl, h, rfl⟩)

/-- The reporting is overridden in settings where the depth is already. -/
lemma run_override_of_follows {middle : Config}
    (h : Follows withDepth config (depthSaid lookup) middle) :
    (override lookup).run config = (reportingStep lookup).run middle := by
  rw [override_eq_steps]
  apply run_bind_of_ok
  exact (performs_depthStep lookup config _ _).2 (.inl ⟨rfl, h⟩)

lemma run_reportingStep_eq_error_iff {fault : Misconfiguration} {after : Config} :
    (reportingStep lookup).run config = (.error fault, after) ↔
      reportingSaid lookup = some (.error fault) ∧ after = config := by
  rw [performs_reportingStep lookup]
  constructor
  · rintro (⟨⟨⟩, -⟩ | ⟨_, ⟨⟩, h⟩)
    exact h
  · intro h
    exact .inr ⟨fault, rfl, h⟩

/-- **Overrides that fail.**  When the depth is malformed nothing has been stored yet.  When the
reporting is, the depth has been stored if its variable is set. -/
theorem override_eq_error_iff (lookup : String → Option String) (config after : Config)
    (fault : Misconfiguration) :
    (override lookup).run config = (.error fault, after) ↔
      (depthSaid lookup = some (.error fault) ∧ after = config) ∨
      (reportingSaid lookup = some (.error fault) ∧ depthSaid lookup = none ∧ after = config) ∨
      ∃ depth, reportingSaid lookup = some (.error fault) ∧
        depthSaid lookup = some (.ok depth) ∧ after = { config with maxDepth := depth } := by
  cases hsaid : depthSaid lookup with
  | none =>
    have hfollows : Follows withDepth config (depthSaid lookup) config := hsaid ▸ .unset
    rw [run_override_of_follows hfollows, run_reportingStep_eq_error_iff]
    simp
  | some said =>
    cases said with
    | ok depth =>
      have hfollows : Follows withDepth config (depthSaid lookup) (withDepth depth config) :=
        hsaid ▸ .given depth
      rw [run_override_of_follows hfollows, run_reportingStep_eq_error_iff]
      simp [withDepth]
    | error found =>
      rw [run_override_of_malformed hsaid, Prod.mk.injEq]
      simp [eq_comm]

/-- An override whose first variable is well formed and whose second one is not. -/
def halfMalformed (key : String) : Option String :=
  if key = depthVariable then some "5" else if key = reportingVariable then some "verbose" else none

/-- A failed override can leave another depth behind. -/
theorem not_untouched_of_failed : ¬ ∀ (lookup : String → Option String) (config after : Config)
    (fault : Misconfiguration), (override lookup).run config = (.error fault, after) →
      after = config := by
  intro huntouched
  have hrun : (override halfMalformed).run {} =
      (.error (.unknownReporting "verbose"), { maxDepth := 5 }) := rfl
  exact absurd (huntouched _ _ _ _ hrun) (by decide)

end Conform.Config
