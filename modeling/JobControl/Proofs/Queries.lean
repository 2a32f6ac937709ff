import JobControl.Proofs.Units

/-! # Queries

Every query is told by one list, that of all jobs with the newest first (`Jobs.Listing`): its answer
is a part of this list, or what a part of it shows. Where no two jobs started at the same time there
is only one list of all jobs with the newest first, so it does not matter how a query goes about
it. -/

namespace JobControl

/-- Different keys ascend when they are sorted. -/
theorem ascends_mergeSort {α : Type} {key : α → String} {l : List α}
    (h : l.Pairwise fun a b => key a ≠ key b) :
    (l.mergeSort fun a b => key a ≤ key b).Pairwise fun a b => key a < key b := by
  have hsorted := @List.pairwise_mergeSort _ (fun a b => decide (key a ≤ key b))
    (fun a b c hab hbc =>
      decide_eq_true (String.le_trans (of_decide_eq_true hab) (of_decide_eq_true hbc)))
    (fun a b => by simpa using String.le_total (key a) (key b)) l
  have hne := ((List.mergeSort_perm l fun a b => key a ≤ key b).pairwise_iff
    fun hab => Ne.symm hab).mpr h
  exact hsorted.imp₂ (fun a b hle hne => Std.lt_of_le_of_ne (of_decide_eq_true hle) hne) hne

namespace Store
variable {s : Store} {j : Job Instant}

/-! ## The jobs of a store -/

theorem mem_jobs : j ∈ s.jobs ↔ s.find? j.id = some j := by
  unfold jobs find?
  simp only [List.mem_map, Prod.exists, Option.map_eq_some_iff]
  constructor
  · rintro ⟨id, r, hmem, rfl⟩
    exact ⟨r, (s.records.mem_entries_iff).mp hmem, rfl⟩
  · rintro ⟨r, hr, hj⟩
    exact ⟨j.id, r, (s.records.mem_entries_iff).mpr hr, hj⟩

theorem map_id_jobs (s : Store) : s.jobs.map (·.id) = s.records.keys := by
  simp [jobs, assemble, Mapping.keys, Function.comp_def]

theorem nodup_jobs (s : Store) : (s.jobs.map (·.id)).Nodup := by
  rw [map_id_jobs]
  exact s.records.distinct

/-- No two jobs started at the same time. -/
def StartsApart (s : Store) : Prop :=
  s.records.entries.Pairwise fun a b => a.2.started ≠ b.2.started

instance : DecidablePred StartsApart := fun s =>
  inferInstanceAs (Decidable (s.records.entries.Pairwise fun a b => a.2.started ≠ b.2.started))

theorem StartsApart.pairwise_jobs (h : s.StartsApart) :
    s.jobs.Pairwise fun a b => a.started ≠ b.started := List.pairwise_map.mpr h

/-! ## The newest first -/

section
variable {js l : List (Job Instant)}

theorem perm_newestFirst (js : List (Job Instant)) : (newestFirst js).Perm js :=
  List.mergeSort_perm _ _

theorem pairwise_newestFirst (js : List (Job Instant)) :
    (newestFirst js).Pairwise fun a b => b.started ≤ a.started := by
  refine (List.pairwise_mergeSort (fun a b c hab hbc => ?_) (fun a b => ?_) js).imp
    of_decide_eq_true
  · exact decide_eq_true (Int.le_trans (of_decide_eq_true hbc) (of_decide_eq_true hab))
  · simp only [Bool.or_eq_true, decide_eq_true_eq]
    exact Int.le_total b.started.micros a.started.micros

theorem descends_newestFirst (h : js.Pairwise fun a b => a.started ≠ b.started) :
    (newestFirst js).Pairwise fun a b => b.started < a.started := by
  have hne : (newestFirst js).Pairwise fun a b => a.started ≠ b.started :=
    ((perm_newestFirst js).pairwise_iff fun hab => hab.symm).mpr h
  refine (pairwise_newestFirst js).imp₂ (fun a b hle hne => ?_) hne
  exact Int.lt_iff_le_and_ne.mpr ⟨hle, fun heq => hne (congrArg Instant.mk heq.symm)⟩

/-- Of all arrangements of some jobs only one descends strictly. -/
theorem newestFirst_eq (hperm : l.Perm js)
    (hdescends : l.Pairwise fun a b => b.started < a.started) : newestFirst js = l := by
  have hne : js.Pairwise fun a b => a.started ≠ b.started :=
    (hperm.pairwise_iff fun hab => Ne.symm hab).mp <|
      hdescends.imp fun hlt heq => Int.ne_of_lt hlt (congrArg Instant.micros (Eq.symm heq))
  refine List.Perm.eq_of_pairwise (fun a b _ _ hab hba => ?_) (descends_newestFirst hne) hdescends
    ((perm_newestFirst js).trans hperm.symm)
  exact absurd hab (Int.lt_asymm hba)

theorem newestFirst_filter (p : Job Instant → Bool)
    (h : js.Pairwise fun a b => a.started ≠ b.started) :
    newestFirst (js.filter p) = (newestFirst js).filter p :=
  newestFirst_eq ((perm_newestFirst js).filter p) ((descends_newestFirst h).filter p)

theorem newestFirst_map (f : Job Instant → Job Instant) (hf : ∀ j, (f j).started = j.started)
    (js : List (Job Instant)) : newestFirst (js.map f) = (newestFirst js).map f := by
  refine (List.map_mergeSort fun a _ b _ => ?_).symm
  rw [hf, hf]

/-- The first of a descending list is the one after which no other started. -/
theorem head?_eq_some_iff (hdescends : l.Pairwise fun a b => b.started < a.started) :
    l.head? = some j ↔ j ∈ l ∧ ∀ k ∈ l, k.started ≤ j.started := by
  cases l with
  | nil => simp
  | cons a l =>
    obtain ⟨hfirst, -⟩ := List.pairwise_cons.mp hdescends
    simp only [List.head?_cons, Option.some.injEq]
    constructor
    · rintro rfl
      refine ⟨List.mem_cons_self, fun k hk => ?_⟩
      rcases List.mem_cons.mp hk with rfl | hk
      · exact Int.le_refl _
      · exact Int.le_of_lt (hfirst k hk)
    · rintro ⟨hj, hlast⟩
      rcases List.mem_cons.mp hj with rfl | hj
      · rfl
      · exact absurd (hlast a List.mem_cons_self) (Int.not_le.mpr (hfirst j hj))

end

theorem limit_of_nonneg {n : Int} (h : 0 ≤ n) (js : List (Job Instant)) :
    limit n js = js.take n.toNat := if_neg (Int.not_lt.mpr h)

theorem mem_findAll : j ∈ s.findAll ↔ s.find? j.id = some j :=
  (perm_newestFirst s.jobs).mem_iff.trans mem_jobs

theorem mem_findStale {cut : Instant} : j ∈ s.findStale cut ↔
    s.find? j.id = some j ∧ j.stopped = none ∧ j.lastUpdated < cut := by
  unfold findStale
  rw [List.mem_mergeSort, List.mem_filter, mem_jobs]
  simp [Job.isStopped]

theorem id_of_find? {id : String} (h : s.find? id = some j) : j.id = id := by
  obtain ⟨r, -, rfl⟩ := Option.map_eq_some_iff.mp h
  rfl

/-- To look a job up is to look for it in the list of all jobs. -/
theorem find?_findAll (s : Store) (id : String) : s.findAll.find? (·.id = id) = s.find? id := by
  cases hfound : s.findAll.find? (·.id = id) with
  | some j =>
    have hid : j.id = id := by simpa using List.find?_some hfound
    exact (hid ▸ mem_findAll.mp (List.mem_of_find?_eq_some hfound)).symm
  | none =>
    cases hj : s.find? id with
    | none => rfl
    | some j =>
      have hid := id_of_find? hj
      have hne := List.find?_eq_none.mp hfound j (mem_findAll.mpr (hid ▸ hj))
      exact absurd (decide_eq_true hid) hne

theorem findStatus?_eq (s : Store) (id : String) :
    s.findStatus? id = (s.find? id).map (·.status) := by
  unfold findStatus? find?
  rw [Option.map_map]
  rfl

theorem findAllWithoutMessages_eq (s : Store) :
    s.findAllWithoutMessages = s.findAll.map fun j => { j with messages := [] } := by
  unfold findAllWithoutMessages findAll
  rw [← newestFirst_map (fun j => { j with messages := [] }) fun _ => rfl]
  simp [jobs, assemble, Function.comp_def]

/-! ## The latest of every type -/

theorem onePerType_of_pairwise {l : List (Job Instant)}
    (h : l.Pairwise fun a b => a.jobType ≠ b.jobType) : onePerType l = l := by
  induction l with
  | nil => rfl
  | cons j rest ih =>
    obtain ⟨hj, hrest⟩ := List.pairwise_cons.mp h
    rw [onePerType, ih hrest, List.filter_eq_self.mpr]
    exact fun k hk => decide_eq_true (hj k hk).symm

theorem isLatest_iff :
    s.isLatest j ↔ ∀ k ∈ s.jobs, k.jobType = j.jobType → k.started ≤ j.started := by
  unfold isLatest
  simp only [List.all_eq_true, Bool.or_eq_true, decide_eq_true_eq, ne_eq, Decidable.imp_iff_not_or]

/-- The jobs that no other of their type started after are of different types. -/
theorem StartsApart.pairwise_latest (h : s.StartsApart) :
    (s.jobs.filter s.isLatest).Pairwise fun a b => a.jobType ≠ b.jobType := by
  refine (h.pairwise_jobs.filter s.isLatest).imp_of_mem fun ha hb hne htype => hne ?_
  obtain ⟨ha, hlatest⟩ := List.mem_filter.mp ha
  obtain ⟨hb, hlatest'⟩ := List.mem_filter.mp hb
  exact congrArg Instant.mk <| Int.le_antisymm (isLatest_iff.mp hlatest' _ ha htype)
    (isLatest_iff.mp hlatest _ hb htype.symm)

theorem StartsApart.findLatestDistinct_eq (h : s.StartsApart) :
    s.findLatestDistinct =
      (s.jobs.filter s.isLatest).mergeSort fun a b => a.jobType ≤ b.jobType :=
  onePerType_of_pairwise <| (ascends_mergeSort h.pairwise_latest).imp fun {a b} hlt heq => by
    rw [heq] at hlt
    exact String.lt_irrefl _ hlt

theorem StartsApart.ascends_findLatestDistinct (h : s.StartsApart) :
    s.findLatestDistinct.Pairwise fun a b => a.jobType < b.jobType := by
  rw [h.findLatestDistinct_eq]
  exact ascends_mergeSort h.pairwise_latest

theorem StartsApart.mem_findLatestDistinct (h : s.StartsApart) :
    j ∈ s.findLatestDistinct ↔ (s.findAll.filter (·.jobType = j.jobType)).head? = some j := by
  have hdescends := (descends_newestFirst h.pairwise_jobs).filter (·.jobType = j.jobType)
  have hmem : ∀ k, k ∈ s.findAll ↔ k ∈ s.jobs := fun k => (perm_newestFirst s.jobs).mem_iff
  rw [h.findLatestDistinct_eq, List.mem_mergeSort, List.mem_filter, isLatest_iff]
  unfold findAll at hmem ⊢
  rw [head?_eq_some_iff hdescends]
  simp only [List.mem_filter, decide_eq_true_eq, hmem, and_true, and_imp]

end Store

/-! ## The answers of the queries -/

namespace UnitOfWork
variable {α β : Type} {w : Workspace}

/-- A unit of work that has an answer and changes nothing. -/
def Answers (u : UnitOfWork α) (w : Workspace) (a : α) : Prop := u.commit w = (.ok a, w)

theorem answers_query (f : Store → α) (w : Workspace) : (query f).Answers w (f w.store) := rfl

theorem Answers.unique {u : UnitOfWork α} {a b : α} (h : u.Answers w a) (h' : u.Answers w b) :
    a = b := Except.ok.inj (congrArg Prod.fst (h.symm.trans h'))

end UnitOfWork

namespace Jobs
open UnitOfWork
variable {w : Workspace} {all : List (Job Instant)}

/-- What the queries answer, told by the list of all jobs. -/
structure Listing (w : Workspace) (all : List (Job Instant)) : Prop where
  findAll : findAll.Answers w all
  /-- Every record is listed once. -/
  once : (all.map (·.id)).Perm w.store.records.keys
  newest : all.Pairwise fun a b => b.started < a.started
  find : ∀ id, (find? id).Answers w (all.find? (·.id = id))
  findStatus : ∀ id, (findStatus? id).Answers w ((all.find? (·.id = id)).map (·.status))
  findByType : ∀ t, (findByType t).Answers w (all.filter (·.jobType = t))
  findLatest : ∀ n : Int, 0 ≤ n → n < (Nat.pow 2 63 : Int) →
    (findLatest n).Answers w (all.take n.toNat)
  findLatestBy : ∀ t (n : Int), 0 ≤ n → n < (Nat.pow 2 63 : Int) →
    (findLatestBy t n).Answers w ((all.filter (·.jobType = t)).take n.toNat)
  withoutMessages : findAllWithoutMessages.Answers w (all.map fun j => { j with messages := [] })
  /-- One job of every type, the types in ascending order. -/
  findLatestDistinct : ∃ latest, findLatestDistinct.Answers w latest ∧
    (latest.map (·.jobType)).Pairwise (· < ·) ∧
    (∀ t, t ∈ latest.map (·.jobType) ↔ t ∈ all.map (·.jobType)) ∧
    ∀ j ∈ latest, (all.filter (·.jobType = j.jobType)).head? = some j
  findStale : ∀ cutoff cut, cutoff.toInstant? = some cut → ∃ stale,
    (findStale cutoff).Answers w stale ∧
      stale.Perm (all.filter fun j => !j.isStopped && j.lastUpdated < cut)

theorem answers_find? {id : String} {r : Option (Job Instant)} :
    (find? id).Answers w r ↔ w.store.find? id = r := by
  constructor
  · exact fun h => (answers_query _ w).unique h
  · rintro rfl
    exact answers_query _ w

theorem answers_of_isCount {α : Type} {f : Store → α} {n : Int} (h₀ : 0 ≤ n)
    (h : n < (Nat.pow 2 63 : Int)) :
    UnitOfWork.Answers (do checkCount n; query f) w (f w.store) := by
  have hcount : Store.isCount n := by
    unfold Store.isCount
    simp only [Bool.and_eq_true, decide_eq_true_eq]
    exact ⟨Int.le_trans (by decide) h₀, h⟩
  unfold checkCount
  rw [if_pos hcount]
  rfl

theorem listing_findAll (h : w.store.StartsApart) : Listing w w.store.findAll where
  findAll := rfl
  once := (((Store.perm_newestFirst _).map _).trans (.of_eq w.store.map_id_jobs))
  newest := Store.descends_newestFirst h.pairwise_jobs
  find id := answers_find?.mpr (w.store.find?_findAll id).symm
  findStatus id := by
    rw [Store.find?_findAll, ← Store.findStatus?_eq]
    exact answers_query _ w
  findByType t := by
    unfold Store.findAll
    rw [← Store.newestFirst_filter _ h.pairwise_jobs]
    exact answers_query (·.findByType t) w
  findLatest n h₀ hn := by
    unfold Store.findAll
    rw [← Store.limit_of_nonneg h₀]
    exact answers_of_isCount h₀ hn
  findLatestBy t n h₀ hn := by
    unfold Store.findAll
    rw [← Store.newestFirst_filter _ h.pairwise_jobs, ← Store.limit_of_nonneg h₀]
    exact answers_of_isCount h₀ hn
  withoutMessages := by
    rw [← Store.findAllWithoutMessages_eq]
    exact answers_query _ w
  findLatestDistinct := by
    refine ⟨_, answers_query _ w, List.pairwise_map.mpr h.ascends_findLatestDistinct,
      fun t => ?_, fun j hj => h.mem_findLatestDistinct.mp hj⟩
    simp only [List.mem_map]
    constructor
    · rintro ⟨j, hj, rfl⟩
      have hhead := h.mem_findLatestDistinct.mp hj
      exact ⟨j, (List.mem_filter.mp (List.mem_of_head? hhead)).1, rfl⟩
    · rintro ⟨j, hj, rfl⟩
      have hmem : j ∈ w.store.findAll.filter (·.jobType = j.jobType) :=
        List.mem_filter.mpr ⟨hj, decide_eq_true rfl⟩
      obtain ⟨k, hk⟩ :=
        Option.isSome_iff_exists.mp (List.isSome_head?.mpr (List.ne_nil_of_mem hmem))
      have htype : k.jobType = j.jobType :=
        of_decide_eq_true (List.mem_filter.mp (List.mem_of_head? hk)).2
      exact ⟨k, h.mem_findLatestDistinct.mpr (htype ▸ hk), htype⟩
  findStale cutoff cut hcut := by
    refine ⟨w.store.findStale cut, ?_, (List.mergeSort_perm _ _).trans
      ((Store.perm_newestFirst w.store.jobs).filter _).symm⟩
    unfold Answers
    rw [commit_findStale, hcut]

/-- Where no two jobs started at the same time, the answers of all queries can be told by one list:
every job once, the newest first. -/
theorem queries_agree (w : Workspace) (h : w.store.StartsApart) : ∃ all, Listing w all :=
  ⟨w.store.findAll, listing_findAll h⟩

/-- Of three jobs two are of one type, and of these the older one has been stopped. -/
theorem queries_agree_mixed :
    ∃ (w : Workspace) (first second third : Job Instant), w.store.StartsApart ∧
      Listing w [third, second, first] ∧ first.isStopped ∧ first.jobType = third.jobType ∧
      (findByType third.jobType).Answers w [third, first] ∧
      (findLatestBy third.jobType 1).Answers w [third] := by
  let later (k : Micros) : Instant := ⟨63902822400000000 + k⟩
  let first : Job Instant := ⟨"job-1", "nightly", later 0, later 3, some (later 3), .ok, "host",
    [⟨.info, later 1, "done"⟩]⟩
  let second : Job Instant := .new "job-2" "hourly" (later 1) "host"
  let third : Job Instant := .new "job-3" "nightly" (later 2) "host"
  let s : Store := ((Store.insertJob ∅ second).insertJob first).insertJob third
  let w : Workspace := ⟨s, .starting (.ofInstant (later 4)) 0⟩
  have happart : w.store.StartsApart := by decide +kernel
  obtain ⟨all, hall⟩ := queries_agree w happart
  obtain rfl : all = [third, second, first] := (hall.findAll.unique (answers_query _ w)).trans
    (Store.newestFirst_eq (by decide +kernel) (by decide +kernel))
  exact ⟨w, first, second, third, happart, hall, rfl, rfl, hall.findByType "nightly",
    hall.findLatestBy "nightly" 1 (by decide) (by decide)⟩

end Jobs
end JobControl
