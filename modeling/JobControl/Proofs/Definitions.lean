import Mathlib.Data.List.TakeWhile
import JobControl.Job.Definition

/-! # Definitions

A safe name is made of letters, digits, hyphens and underscores. What a definition accepts as a job
type is a safe name, or a safe name with a line feed behind it; whether it accepts one does not
depend on the other fields. -/

namespace JobControl

/-- A name that can stand in ids, labels and lines of text. -/
structure SafeName (name : String) : Prop where
  nonempty : name ≠ ""
  chars : ∀ c ∈ name.toList, c.isAlphanum ∨ c = '-' ∨ c = '_'

/-! ## What is accepted as a job type -/

theorem isNameChar_iff {c : Char} : isNameChar c ↔ c.isAlphanum ∨ c = '-' ∨ c = '_' := by
  simp [isNameChar, or_assoc]

theorem safeName_iff {name : String} :
    SafeName name ↔ name.toList ≠ [] ∧ name.toList.all isNameChar := by
  rw [List.all_eq_true]
  constructor
  · rintro ⟨hnonempty, hchars⟩
    exact ⟨fun h => hnonempty (String.toList_eq_nil_iff.mp h),
      fun c hc => isNameChar_iff.mpr (hchars c hc)⟩
  · rintro ⟨hnonempty, hchars⟩
    exact ⟨fun h => hnonempty (String.toList_eq_nil_iff.mpr h),
      fun c hc => isNameChar_iff.mp (hchars c hc)⟩

instance : DecidablePred SafeName := fun _ => decidable_of_iff _ safeName_iff.symm

theorem isJobTypeName_iff {t : String} :
    isJobTypeName t ↔ ∃ name, SafeName name ∧ (t = name ∨ t = name ++ "\n") := by
  unfold isJobTypeName
  rw [Bool.and_eq_true, Bool.or_eq_true, List.isEmpty_iff, beq_iff_eq, Option.any_eq_true]
  constructor
  · -- The name is what stands before the first other character.
    rintro ⟨⟨c, hc, hchar⟩, hrest⟩
    refine ⟨String.ofList (t.toList.takeWhile isNameChar), safeName_iff.mpr ⟨?_, ?_⟩, ?_⟩
    · obtain ⟨tail, htail⟩ := List.head?_eq_some_iff.mp hc
      simp [htail, hchar]
    · simp
    · have hsplit : t.toList.takeWhile isNameChar ++ t.toList.dropWhile isNameChar = t.toList :=
        List.takeWhile_append_dropWhile
      rcases hrest with hrest | hrest <;> rw [hrest] at hsplit
      · exact .inl (String.toList_inj.mp (by simpa using hsplit.symm))
      · exact .inr (String.toList_inj.mp (by simpa using hsplit.symm))
  · rintro ⟨name, hname, ht⟩
    obtain ⟨hnonempty, hall⟩ := safeName_iff.mp hname
    have hchars := List.all_eq_true.mp hall
    obtain ⟨c, tail, htail⟩ := List.exists_cons_of_ne_nil hnonempty
    have hfirst : isNameChar c := hchars c (by simp [htail])
    rcases ht with rfl | rfl
    · exact ⟨⟨c, by simp [htail], hfirst⟩, .inl (List.dropWhile_eq_nil_iff.mpr hchars)⟩
    · refine ⟨⟨c, by simp [htail], hfirst⟩, .inr ?_⟩
      rw [String.toList_append, List.dropWhile_append_of_pos hchars]
      rfl

/-- An accepted name is safe unless there is a line feed in it. -/
theorem safeName_of_accepted {t name : String} (hname : SafeName name)
    (ht : t = name ∨ t = name ++ "\n") : SafeName t ↔ '\n' ∉ t.toList := by
  have hsafe {s : String} (hs : SafeName s) : '\n' ∉ s.toList := by
    intro hmem
    exact absurd (hs.chars _ hmem) (by decide)
  refine ⟨hsafe, fun hfeed => ?_⟩
  rcases ht with rfl | rfl
  · exact hname
  · exact absurd (by simp) hfeed

/-! ## Definitions -/

namespace Checked
variable {α β : Type}

theorem seq_eq_ok {f : Checked (α → β)} {a : Checked α} {b : β} (h : f <*> a = ok b) :
    ∃ g x, f = ok g ∧ a = ok x ∧ b = g x := by
  cases f with
  | bad faults => cases a <;> exact absurd h nofun
  | ok g =>
    cases a with
    | bad faults => exact absurd h nofun
    | ok x =>
      cases h
      exact ⟨g, x, rfl, rfl, rfl⟩

theorem require_ok (place : String) (f : α → Option Fault) (a : α) :
    (ok a).require place f = match f a with
      | none => ok a
      | some e => fault place e := rfl

theorem require_eq_ok {place : String} {f : α → Option Fault} {c : Checked α} {a : α}
    (h : c.require place f = ok a) : c = ok a ∧ f a = none := by
  cases c with
  | bad faults => exact absurd h nofun
  | ok x =>
    unfold require at h
    dsimp only at h
    split at h
    · cases h
      exact ⟨rfl, ‹_›⟩
    · contradiction

theorem toExcept_eq_ok {c : Checked α} {a : α} (h : c.toExcept = .ok a) : c = ok a := by
  cases c with
  | bad faults => exact absurd h nofun
  | ok x =>
    cases h
    rfl

end Checked

namespace Reader
variable {α : Type} {read : Reader α} {place name other : String} {v : Value}
  {fields : List (String × Value)} {default : α}

theorem required_cons : read.required place ((name, v) :: fields) name =
    read (Checked.within place name) v := by
  simp [required]

theorem optional_cons (h : name ≠ other) : read.optional place ((other, v) :: fields) name default =
    read.optional place fields name default := by
  have hne : (name == other) = false := beq_false_of_ne h
  simp only [optional, List.lookup_cons, hne]

end Reader

namespace Definition
variable {fields : List (String × Value)} {d : Definition}

/-- The job type of a definition is an accepted name, and another one in its place is accepted or
not by itself. -/
theorem ofFields_spec (h : ofFields fields = .ok d) :
    isJobTypeName d.jobType ∧
      ∀ t, ofFields (("job_type", .text t) :: fields) =
        if isJobTypeName t then .ok { d with jobType := t }
        else .error (.invalid [("job_type", .unsafeName t)]) := by
  obtain ⟨_, delay, h₅, hdelay, rfl⟩ := Checked.seq_eq_ok (Checked.toExcept_eq_ok h)
  obtain ⟨_, restarts, h₄, hrestarts, rfl⟩ := Checked.seq_eq_ok h₅
  obtain ⟨_, blocking, h₃, hblocking, rfl⟩ := Checked.seq_eq_ok h₄
  obtain ⟨_, description, h₂, hdescription, rfl⟩ := Checked.seq_eq_ok h₃
  obtain ⟨_, jobName, h₁, hjobName, rfl⟩ := Checked.seq_eq_ok h₂
  obtain ⟨g, jobType, hbuild, hjobType, rfl⟩ := @Checked.seq_eq_ok _ _ (pure build) _ _ h₁
  cases hbuild
  constructor
  · have haccepted := (Checked.require_eq_ok hjobType).2
    split at haccepted
    · assumption
    · contradiction
  · intro t
    unfold ofFields
    simp only [Reader.optional_cons, Reader.required_cons, ne_eq, String.reduceEq,
      not_false_eq_true, hjobName, hdescription, hblocking, hrestarts, hdelay, Reader.text,
      Checked.require_ok]
    by_cases ht : isJobTypeName t
    · simp only [ht, if_true]
      rfl
    · simp only [ht]
      show Checked.toExcept (.bad [("job_type", .unsafeName t)]) = _
      simp [Checked.toExcept]

/-- Of two job types among the fields, the first one counts. -/
theorem ofFields_cons_cons (v w : Value) (fields : List (String × Value)) :
    ofFields (("job_type", v) :: ("job_type", w) :: fields) =
      ofFields (("job_type", v) :: fields) := by
  unfold ofFields
  simp only [Reader.required_cons, Reader.optional_cons, ne_eq, String.reduceEq,
    not_false_eq_true]

/-- The definition was read from fields. -/
def Accepted (d : Definition) : Prop := ∃ fields, ofFields fields = .ok d

theorem Accepted.isJobTypeName (h : d.Accepted) : isJobTypeName d.jobType := by
  obtain ⟨fields, hfields⟩ := h
  exact (ofFields_spec hfields).1

end Definition

end JobControl
