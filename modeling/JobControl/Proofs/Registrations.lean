import JobControl.Handlers
import JobControl.Proofs.Definitions
import JobControl.Proofs.Queries

/-! # Registrations

Handlers are registered one after the other, and some registrations are refused. What the handlers
then answer can be told from the list of those that were registered: no two of their job types
differ only in case, a type is looked up by its lower-case form, and the types are listed as they
are spelled. -/

namespace JobControl

/-! ## What is registered -/

namespace Registration
variable {η : Type} {fields further : List (String × Value)} {body : η} {h : Handler η}

theorem of_handler_made (hmade : (made fields body).handler = .ok h) :
    body = h.body ∧ Definition.ofFields fields = .ok h.definition := by
  rw [handler] at hmade
  cases hd : Definition.ofFields fields with
  | error e =>
    rw [hd] at hmade
    contradiction
  | ok d =>
    rw [hd] at hmade
    obtain rfl := Except.ok.inj hmade
    exact ⟨rfl, rfl⟩

/-- Where the further fields of a definition are accepted with one job type, what is registered
under a name has this name and the same other fields, and does what was given. It fails exactly if
the name is not accepted. -/
theorem handler_decorated {d : Definition} {t : String}
    (hfurther : Definition.ofFields (("job_type", .text t) :: further) = .ok d) (jobType : String) :
    (decorated jobType further body).handler =
      if isJobTypeName jobType then .ok ⟨{ d with jobType }, body⟩
      else .error (.invalid [("job_type", .unsafeName jobType)]) := by
  have hname := (Definition.ofFields_spec hfurther).2 jobType
  rw [Definition.ofFields_cons_cons] at hname
  rw [decorated, handler, hname]
  split <;> rfl

end Registration

/-- What handlers are kept under. -/
def Handler.key {η : Type} (h : Handler η) : String := Text.lowercase h.definition.jobType

namespace Handlers
variable {η : Type}

theorem accept_of_invalid {r : Registration η} {e : Failure} (hr : r.handler = .error e)
    (hs : Handlers η) : hs.accept r = .error e := by
  simp [accept, hr, bind, Except.bind]

theorem accept_of_handler {r : Registration η} {h : Handler η} (hr : r.handler = .ok h)
    (hs : Handlers η) : hs.accept r = hs.register h := by
  simp [accept, hr, bind, Except.bind]

/-- The handler that is registered, if the registration succeeds. -/
def registered (hs : Handlers η) (r : Registration η) : List (Handler η) :=
  match hs.accept r with
  | .ok _ => r.handler.toOption.toList
  | .error _ => []

/-- The handlers of all registrations that succeed, in order. -/
def registeredAll (hs : Handlers η) : List (Registration η) → List (Handler η)
  | [] => []
  | r :: rest => hs.registered r ++ (hs.attempt r).registeredAll rest

theorem of_mem_registeredAll {hs : Handlers η} {rs : List (Registration η)} {h : Handler η}
    (hmem : h ∈ hs.registeredAll rs) : ∃ r ∈ rs, r.handler = .ok h := by
  induction rs generalizing hs with
  | nil => contradiction
  | cons r rest ih =>
    rcases List.mem_append.mp hmem with hfirst | hrest
    · refine ⟨r, List.mem_cons_self, ?_⟩
      unfold registered at hfirst
      cases hr : r.handler with
      | error e =>
        rw [accept_of_invalid hr] at hfirst
        contradiction
      | ok g =>
        rw [hr] at hfirst
        split at hfirst
        · rw [List.mem_singleton.mp hfirst]
        · contradiction
    · obtain ⟨r', hr', hhandler⟩ := ih hrest
      exact ⟨r', List.mem_cons_of_mem r hr', hhandler⟩

/-- The handlers are those of a list, in its order. -/
def Lists (hs : Handlers η) (l : List (Handler η)) : Prop :=
  hs.byKey.entries = l.map fun h => (h.key, h)

namespace Lists
variable {hs : Handlers η} {l : List (Handler η)} {h : Handler η} {x : String}

theorem empty : (Handlers.empty : Handlers η).Lists [] := rfl

theorem nodup (hl : hs.Lists l) : (l.map (·.key)).Nodup := by
  have hdistinct := hs.byKey.distinct
  rw [hl, List.map_map] at hdistinct
  exact hdistinct

/-! ## Look-up -/

theorem get?_eq_some (hl : hs.Lists l) :
    hs.get? x = some h ↔ h ∈ l ∧ h.key = Text.lowercase x := by
  unfold get?
  rw [← Mapping.mem_entries_iff, hl, List.mem_map]
  constructor
  · rintro ⟨g, hg, heq⟩
    obtain ⟨hkey, rfl⟩ := Prod.mk.inj heq
    exact ⟨hg, hkey⟩
  · rintro ⟨hmem, hkey⟩
    exact ⟨h, hmem, by rw [hkey]⟩

theorem get?_eq_none (hl : hs.Lists l) :
    hs.get? x = none ↔ ∀ g ∈ l, g.key ≠ Text.lowercase x := by
  rw [Option.eq_none_iff_forall_ne_some]
  exact ⟨fun hnone g hg hkey => hnone g (hl.get?_eq_some.mpr ⟨hg, hkey⟩),
    fun hfree g hget =>
      have ⟨hg, hkey⟩ := hl.get?_eq_some.mp hget
      hfree g hg hkey⟩

theorem find_eq_ok (hl : hs.Lists l) :
    hs.find x = .ok h ↔ h ∈ l ∧ h.key = Text.lowercase x := by
  rw [← hl.get?_eq_some]
  unfold find
  cases hs.get? x <;> simp

theorem find_eq_unknown (hl : hs.Lists l) :
    hs.find x = .error (.unknownJobType x) ↔ ∀ g ∈ l, g.key ≠ Text.lowercase x := by
  rw [← hl.get?_eq_none]
  unfold find
  cases hs.get? x <;> simp

/-! ## Registration -/

theorem register_of_clash (hl : hs.Lists l) {g : Handler η} (hg : g ∈ l) (hkey : g.key = h.key) :
    hs.register h = .error (.duplicateHandler h.definition.jobType) := by
  have hget : hs.byKey.get? h.key = some g := hl.get?_eq_some.mpr ⟨hg, hkey⟩
  exact if_pos (by simp [Mapping.contains, show hs.byKey.get? (Text.lowercase _) = _ from hget])

theorem register_of_free (hl : hs.Lists l) (hfree : ∀ g ∈ l, g.key ≠ h.key) :
    ∃ hs', hs.register h = .ok hs' ∧ hs'.Lists (l ++ [h]) := by
  have hget : hs.byKey.get? h.key = none := hl.get?_eq_none.mpr hfree
  refine ⟨⟨hs.byKey.insert h.key h⟩, if_neg ?_, ?_⟩
  · simp [Mapping.contains, show hs.byKey.get? (Text.lowercase _) = _ from hget]
  · rw [Lists, Mapping.entries_insert_of_get? hget, hl, List.map_append]
    rfl

theorem attempt (hl : hs.Lists l) (r : Registration η) :
    (hs.attempt r).Lists (l ++ hs.registered r) := by
  unfold Handlers.attempt registered
  cases hr : r.handler with
  | error e => simpa [accept_of_invalid hr] using hl
  | ok h =>
    rw [accept_of_handler hr]
    by_cases hclash : ∃ g ∈ l, g.key = h.key
    · obtain ⟨g, hg, hkey⟩ := hclash
      simpa [hl.register_of_clash hg hkey] using hl
    · obtain ⟨hs', hregister, hl'⟩ := hl.register_of_free (h := h)
        fun g hg hkey => hclash ⟨g, hg, hkey⟩
      simpa [hregister, Except.toOption] using hl'

/-- A registration succeeds exactly if it is valid and its key is not taken. -/
theorem accept_iff (hl : hs.Lists l) (r : Registration η) :
    (∃ hs', hs.accept r = .ok hs') ↔ ∃ h, r.handler = .ok h ∧ ∀ g ∈ l, g.key ≠ h.key := by
  constructor
  · rintro ⟨hs', hok⟩
    cases hr : r.handler with
    | error e => exact absurd ((accept_of_invalid hr hs).symm.trans hok) nofun
    | ok h =>
      rw [accept_of_handler hr] at hok
      exact ⟨h, rfl, fun g hg hkey => absurd ((hl.register_of_clash hg hkey).symm.trans hok) nofun⟩
  · rintro ⟨h, hr, hfree⟩
    obtain ⟨hs', hregister, -⟩ := hl.register_of_free hfree
    exact ⟨hs', (accept_of_handler hr hs).trans hregister⟩

theorem after (hl : hs.Lists l) (rs : List (Registration η)) :
    (hs.after rs).Lists (l ++ hs.registeredAll rs) := by
  induction rs generalizing hs l with
  | nil => simpa [registeredAll, Handlers.after] using hl
  | cons r rest ih =>
    rw [registeredAll, ← List.append_assoc]
    exact ih (hl.attempt r)

/-! ## The job types -/

theorem size_eq (hl : hs.Lists l) : hs.size = l.length := by
  rw [size, hl, List.length_map]

theorem jobTypes_perm (hl : hs.Lists l) :
    hs.jobTypes.Perm (l.map (·.definition.jobType)) := by
  unfold jobTypes
  rw [hl, List.map_map]
  exact List.mergeSort_perm _ _

theorem ascends_jobTypes (hl : hs.Lists l) : hs.jobTypes.Pairwise (· < ·) := by
  unfold jobTypes
  rw [hl, List.map_map]
  -- Types with different lower-case forms are different.
  refine @ascends_mergeSort _ id _ (List.pairwise_map.mpr ?_)
  exact (List.pairwise_map.mp hl.nodup).imp fun hne heq => hne (congrArg Text.lowercase heq)

end Lists

/-! ## All registrations -/

/-- What is looked up comes from one of the registrations. -/
theorem of_get?_after {rs : List (Registration η)} {x : String} {h : Handler η}
    (hget : ((empty : Handlers η).after rs).get? x = some h) : ∃ r ∈ rs, r.handler = .ok h :=
  of_mem_registeredAll ((Lists.empty.after rs).get?_eq_some.mp hget).1

/-- After any registrations, a further one fails if its definition is not valid or a handler is
registered under the lower-case form of its job type; it succeeds otherwise. What is looked up under
a type, whatever text it is, is the one registered handler with the same lower-case form, and it is
only found missing if there is none. There are as many handlers as registrations succeeded, and
their job types are listed in order, each once, as their definitions spell them. What is decorated
with further fields that are accepted is a handler of the given job type, with these fields and with
what was decorated, if the type is an accepted name; it is not valid otherwise. -/
theorem registrations_exact (past : List (Registration η)) :
    let hs : Handlers η := empty.after past
    let l : List (Handler η) := (empty : Handlers η).registeredAll past
    (∀ r, ((∃ hs', hs.accept r = .ok hs') ↔ ∃ h, r.handler = .ok h ∧ ∀ g ∈ l, g.key ≠ h.key) ∧
      (∀ h, r.handler = .ok h → (∃ g ∈ l, g.key = h.key) →
        hs.accept r = .error (.duplicateHandler h.definition.jobType)) ∧
      (∀ e, r.handler = .error e → hs.accept r = .error e) ∧
      ∀ e, hs.accept r = .error e → hs.attempt r = hs ∧ hs.registered r = []) ∧
    (l.Pairwise fun g h => g.key ≠ h.key) ∧
    (∀ x h, hs.find x = .ok h ↔ h ∈ l ∧ h.key = Text.lowercase x) ∧
    (∀ x, hs.find x = .error (.unknownJobType x) ↔ ∀ g ∈ l, g.key ≠ Text.lowercase x) ∧
    (∀ x, hs.contains x = true ↔ ∃ h, hs.find x = .ok h) ∧
    hs.size = l.length ∧
    hs.jobTypes.Perm (l.map (·.definition.jobType)) ∧ hs.jobTypes.Pairwise (· < ·) ∧
    (∀ x, (Failure.unknownJobType x).kind = "JobTypeNotFoundError" ∧
      (Failure.duplicateHandler x).kind = "ValueError") ∧
    ∀ further t d, Definition.ofFields (("job_type", .text t) :: further) = .ok d →
      ∀ jobType (body : η), (Registration.decorated jobType further body).handler =
        if isJobTypeName jobType then .ok ⟨{ d with jobType }, body⟩
        else .error (.invalid [("job_type", .unsafeName jobType)]) := by
  intro hs l
  have hl : hs.Lists l := Lists.empty.after past
  refine ⟨fun r => ?_, List.pairwise_map.mp hl.nodup, fun x h => hl.find_eq_ok,
    fun x => hl.find_eq_unknown, fun x => ?_, hl.size_eq, hl.jobTypes_perm, hl.ascends_jobTypes,
    fun x => ⟨rfl, rfl⟩, fun further t d hfurther jobType body =>
      Registration.handler_decorated hfurther jobType⟩
  · refine ⟨hl.accept_iff r, ?_, fun e hr => accept_of_invalid hr hs, fun e he => ?_⟩
    · rintro h hr ⟨g, hg, hkey⟩
      rw [accept_of_handler hr, hl.register_of_clash hg hkey]
    · simp [attempt, registered, he]
  · unfold contains find
    cases hs.get? x <;> simp

/-- Where types differ only in case the later ones are refused, and any spelling of the type finds
what was registered first. -/
theorem registrations_exact_clash :
    let hs : Handlers Nat :=
      empty.after [.decorated "import" [("restarts", .whole 2)] 1, .decorated "IMPORT" [] 2]
    hs.accept (.decorated "Import" [] 3) = .error (.duplicateHandler "Import") ∧
      hs.attempt (.decorated "Import" [] 3) = hs ∧
      hs.find "iMPORT" = .ok ⟨⟨"import", "", "", [], 2, .zero⟩, 1⟩ ∧
      hs.find "export" = .error (.unknownJobType "export") := by
  intro hs
  obtain ⟨haccept, -, hfind, hunknown, -⟩ := registrations_exact
    [.decorated "import" [("restarts", .whole 2)] 1, .decorated "IMPORT" [] 2]
  have hlist : (empty : Handlers Nat).registeredAll
      [.decorated "import" [("restarts", .whole 2)] 1, .decorated "IMPORT" [] 2] =
        [⟨⟨"import", "", "", [], 2, .zero⟩, 1⟩] := by decide +kernel
  rw [hlist] at haccept hfind hunknown
  have hclash := (haccept (.decorated "Import" [] 3)).2.1 ⟨⟨"Import", "", "", [], 0, .zero⟩, 3⟩
    (by decide +kernel) ⟨_, List.mem_singleton_self _, by decide +kernel⟩
  refine ⟨hclash, ((haccept _).2.2.2 _ hclash).1, (hfind _ _).mpr ⟨List.mem_singleton_self _, ?_⟩,
    (hunknown _).mpr fun g hg => ?_⟩
  · decide +kernel
  · rw [List.mem_singleton.mp hg]
    decide +kernel

/-- The sign for the kelvin becomes a small letter, so it finds the type with that letter. -/
example : ((empty : Handlers Unit).after
    [.direct ⟨⟨"kilo", "", "", [], 0, .zero⟩, ()⟩]).contains "\u212aILO" = true := by
  decide +kernel

end Handlers
end JobControl
