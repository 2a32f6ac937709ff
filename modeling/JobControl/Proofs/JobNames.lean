import JobControl.Proofs.AccountedRuns
import JobControl.Proofs.Registrations

/-! # Names of job types

Definitions get into the handlers by registration, and from there into the store. So the types of
all records and run locks are what definitions accept as a job type: safe names, or safe names with
a line feed behind them. -/

namespace JobControl

/-! ## Registrations -/

namespace Handlers
variable {η : Type} {h : Handler η} {name : String}

/-- The handlers after any sequence of attempts to register some, each with the fields of its
definition and with what it does. -/
def ofAttempts (attempts : List (List (String × Value) × η)) : Handlers η :=
  empty.after (attempts.map fun a => .made a.1 a.2)

/-- Every handler was registered by one of the attempts. -/
theorem of_get?_ofAttempts {attempts : List (List (String × Value) × η)}
    (hget : (ofAttempts attempts).get? name = some h) :
    ∃ a ∈ attempts, a.2 = h.body ∧ Definition.ofFields a.1 = .ok h.definition := by
  obtain ⟨r, hr, hhandler⟩ := of_get?_after hget
  obtain ⟨a, ha, rfl⟩ := List.mem_map.mp hr
  exact ⟨a, ha, Registration.of_handler_made hhandler⟩

end Handlers

/-! ## What gets into the store -/

/-- A job comes in by a start only, with the type of the definition that it is started from. -/
theorem Transaction.Fate.jobType {tx : Transaction} {id : String} {o : Option Record} {r : Record}
    {P : String → Prop} (h : tx.Fate id o (some r)) (htx : tx.StartsFrom fun d => P d.jobType)
    (hold : ∀ r, o = some r → P r.jobType) : P r.jobType := by
  cases h with
  | start time heq => exact htx _ _ _ _ heq
  | update | mark | stop =>
    have htype := hold _ rfl
    exact htype

namespace Schedule
variable {s s₀ : Schedule} {past : List Moment} {attempts : List (List (String × Value) × Script)}

/-- Where all definitions at hand, and those in calls, have a type in `P`, so have all records and
all run locks. -/
theorem Run.jobTypes {P : String → Prop} (h : s₀.Run past s) (h₀ : s₀.Initial)
    (hstocks : s₀.deployment.Stocks (·.From fun d => P d.jobType))
    (hcalls : ∀ m ∈ past, ∀ d, m.turn.definition? = some d → P d.jobType) :
    (∀ id r, s.store.records.get? id = some r → P r.jobType) ∧
      ∀ jobType id, s.store.holder jobType = some id → P jobType := by
  have htx := h.performs_from h₀ hstocks hcalls
  have hrecords : ∀ id r, s.store.records.get? id = some r → P r.jobType := by
    clear hcalls
    induction h with
    | start =>
      intro id r hr
      rw [h₀.store] at hr
      contradiction
    | turn hrun hservice hturn ih =>
      intro id r hr
      obtain ⟨tx, hperforms, hfrom⟩ := htx _ List.mem_concat_self
      have hfate := hperforms.outcome.fate id
      rw [hr] at hfate
      exact hfate.jobType hfrom (ih (fun m hm => htx m (List.mem_append_left _ hm)) id)
  refine ⟨hrecords, fun jobType id hholder => ?_⟩
  obtain ⟨r, hr, rfl⟩ := (h.consistent h₀ jobType id).mp hholder
  exact hrecords id r (Store.get?_of_running? hr)

/-- In a run of the service from an empty store, with handlers that come from any attempts to
register some, and where jobs are started by these or by accepted definitions only, the types of all
records and all run locks are safe names, or safe names with a line feed behind them; so such a type
is safe exactly if there is no line feed in it. And these are the types that definitions accept. -/
theorem jobType_safe_iff (h₀ : s₀.Initial)
    (hqueue : ∀ site ∈ s₀.deployment.sites, site.pool.queue = [])
    (hhandlers : s₀.deployment.handlers = .ofAttempts attempts)
    (hscripts : ∀ a ∈ attempts, ∀ actions ∈ a.2, ∀ action ∈ actions,
      ∀ d, action.definition? = some d → d.Accepted)
    (h : s₀.Run past s)
    (hcalls : ∀ m ∈ past, ∀ d, m.turn.definition? = some d → d.Accepted) :
    (∀ t, ((∃ id r, s.store.records.get? id = some r ∧ r.jobType = t) ∨
        ∃ id, s.store.holder t = some id) →
      (∃ name, SafeName name ∧ (t = name ∨ t = name ++ "\n")) ∧
        (SafeName t ↔ '\n' ∉ t.toList)) ∧
    ∀ fields d, Definition.ofFields fields = .ok d → ∀ t,
      (∃ d', Definition.ofFields (("job_type", .text t) :: fields) = .ok d') ↔
        ∃ name, SafeName name ∧ (t = name ∨ t = name ++ "\n") := by
  have hstocks : s₀.deployment.Stocks (·.From fun d => isJobTypeName d.jobType) := by
    refine ⟨fun name handler hget => ?_, fun site hsite t ht => ?_⟩
    · rw [hhandlers] at hget
      obtain ⟨a, ha, hbody, hd⟩ := Handlers.of_get?_ofAttempts hget
      refine ⟨Definition.Accepted.isJobTypeName ⟨_, hd⟩, fun actions hactions x hx d hdef => ?_⟩
      exact (hscripts a ha actions (hbody ▸ hactions) x hx d hdef).isJobTypeName
    · rw [hqueue site hsite] at ht
      contradiction
  obtain ⟨hrecords, hlocks⟩ := h.jobTypes (P := fun t => isJobTypeName t) h₀ hstocks
    fun m hm d hd => (hcalls m hm d hd).isJobTypeName
  constructor
  · intro t ht
    have haccepted : isJobTypeName t := by
      rcases ht with ⟨id, r, hr, rfl⟩ | ⟨id, hholder⟩
      · exact hrecords id r hr
      · exact hlocks t id hholder
    obtain ⟨name, hname, heq⟩ := isJobTypeName_iff.mp haccepted
    exact ⟨⟨name, hname, heq⟩, safeName_of_accepted hname heq⟩
  · intro fields d hd t
    rw [(Definition.ofFields_spec hd).2 t, ← isJobTypeName_iff]
    constructor
    · rintro ⟨d', hd'⟩
      split at hd'
      · assumption
      · contradiction
    · intro ht
      rw [if_pos ht]
      exact ⟨_, rfl⟩

/-- One engine at which a handler that sleeps for a minute was to be registered for each name. -/
def registering (names : List String) : Schedule :=
  ofEngine 1 Micros.perMinute <| .ofAttempts <|
    names.map fun t => ([("job_type", .text t)], [[.sleep Micros.perMinute]])

theorem initial_registering (names : List String) : (registering names).Initial := by
  refine initial_ofEngine fun name handler hget => ?_
  obtain ⟨a, ha, hbody, -⟩ := Handlers.of_get?_ofAttempts hget
  obtain ⟨t, -, rfl⟩ := List.mem_map.mp ha
  intro actions hactions x hx
  rw [← hbody] at hactions
  obtain rfl := List.mem_singleton.mp hactions
  obtain rfl := List.mem_singleton.mp hx
  rfl

/-- Of three attempts only the first is accepted, and its handler is started by another spelling.
Its definition would also be accepted with another safe name. -/
theorem jobType_safe_iff_nightly :
    ∃ past s, (registering ["nightly", "NIGHTLY", "night ly"]).Initial ∧
      (registering ["nightly", "NIGHTLY", "night ly"]).Run past s ∧
      (∃ r, s.store.records.get? "job-1" = some r ∧ r.jobType = "nightly") ∧
      s.store.holder "nightly" = some "job-1" ∧ SafeName "nightly" ∧
      ∃ d, Definition.ofFields [("job_type", .text "Night-ly_2"), ("job_type", .text "nightly")] =
        .ok d := by
  obtain ⟨past, s, hrun, hp⟩ := exists_run (registering ["nightly", "NIGHTLY", "night ly"])
    [.call 0 0 (.start (.named "Nightly")), .move (.resume 0), .move (.resume 0)]
    (fun past s => (s.store.records.get? "job-1").any (·.jobType = "nightly") &&
      s.store.holder "nightly" = some "job-1" &&
      past.all (·.turn.definition?.isNone))
    (by decide +kernel) (by decide +kernel)
  simp only [Bool.and_eq_true, Option.any_eq_true, decide_eq_true_eq, List.all_eq_true] at hp
  obtain ⟨⟨⟨r, hr, htype⟩, hholder⟩, hpast⟩ := hp
  have hinitial := initial_registering ["nightly", "NIGHTLY", "night ly"]
  have hsafe := jobType_safe_iff hinitial (by decide) rfl
    (fun a ha actions hactions action haction d hd => by
      obtain ⟨t, -, rfl⟩ := List.mem_map.mp ha
      obtain rfl := List.mem_singleton.mp hactions
      obtain rfl := List.mem_singleton.mp haction
      contradiction)
    hrun fun m hm d hd => by
      have hnone := hpast m hm
      rw [hd] at hnone
      contradiction
  have hnightly := (hsafe.1 "nightly" (.inr ⟨"job-1", hholder⟩)).2.mpr (by decide +kernel)
  have hother := (hsafe.2 [("job_type", .text "nightly")] _ rfl "Night-ly_2").mpr
    ⟨"Night-ly_2", by decide +kernel, .inl rfl⟩
  exact ⟨past, s, hinitial, hrun, ⟨r, hr, htype⟩, hholder, hnightly, hother⟩

/-- A type with a line feed in it is accepted, and gets into a record and a run lock. -/
theorem lineFeed_jobType_enters :
    ∃ past s r, (registering ["nightly\n"]).Initial ∧ (registering ["nightly\n"]).Run past s ∧
      s.store.records.get? "job-1" = some r ∧ s.store.holder r.jobType = some "job-1" ∧
      ¬ SafeName r.jobType := by
  obtain ⟨past, s, hrun, hp⟩ := exists_run (registering ["nightly\n"])
    [.call 0 0 (.start (.named "nightly\n")), .move (.resume 0), .move (.resume 0)]
    (fun _ s => (s.store.records.get? "job-1").any fun r =>
      s.store.holder r.jobType = some "job-1" && r.jobType = "nightly\n")
    (by decide +kernel) (by decide +kernel)
  simp only [Bool.and_eq_true, Option.any_eq_true, decide_eq_true_eq] at hp
  obtain ⟨r, hr, hholder, htype⟩ := hp
  have hname : ¬ SafeName r.jobType := by
    rw [htype]
    decide +kernel
  exact ⟨past, s, r, initial_registering _, hrun, hr, hholder, hname⟩

end Schedule
end JobControl
