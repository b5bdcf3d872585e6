import IamInventory.Proofs.Contracts
import IamInventory.Proofs.Enrichment
import IamInventory.Proofs.LatestUse
import Mathlib.Data.List.Forall2

/-!
# Write-back — what is left in the resources, however an enrichment ends

  What a job has told is written into its resource in two steps: the entries, and then the latest
  use among them. So a resource is as it was, or it has both from its own job. There is one way
  between the two steps: entries that tell of zoned and of zoneless timestamps have no latest use,
  so that the entries stand beside the latest use from before, and the enrichment ends.

* **`LastAccessed.HoldsEntries`** — answers whose pages hold entries.
* **`LastAccessed.WrittenBack`** — what has become of one resource.
* **`LastAccessed.attach_writesBack`** — what has become of all of them.
-/

namespace IamInventory

namespace LastAccessed

variable {settings : Settings}

/-! ## What answers hold -/

/-- Whether the page that an answer is, if it is one, holds entries. -/
def HoldsEntries (a : Answer) : Prop :=
  ∀ v es, a = .response v → entriesOf v = .ok es → ∀ e ∈ es, IsEntry e

/-- The promise that all pages of jobs hold entries. -/
def entryPromise : Promise := fun action a => action = details → HoldsEntries a

theorem entryPromise_unscripted (action : Action) : entryPromise action Script.unscripted := by
  intro _ v es hv
  cases hv

/-- What is said of the entries of each page is said of the entries of all. -/
theorem forall_entriesOfPages {P : Value → Prop} {pages entries : List Value}
    (hP : ∀ v ∈ pages, ∀ es, entriesOf v = .ok es → ∀ e ∈ es, P e)
    (h : entriesOfPages pages = .ok entries) : ∀ e ∈ entries, P e := by
  induction pages generalizing entries with
  | nil =>
    cases h
    exact List.forall_mem_nil _
  | cons v pages ih =>
    obtain ⟨hv, hpages⟩ := List.forall_mem_cons.mp hP
    cases hes : entriesOf v with
    | error e =>
      rw [entriesOfPages, hes] at h
      cases h
    | ok es =>
      cases hmore : entriesOfPages pages with
      | error e =>
        rw [entriesOfPages, hes, hmore] at h
        cases h
      | ok more =>
        rw [entriesOfPages, hes, hmore] at h
        cases h
        exact List.forall_mem_append.mpr ⟨hv es hes, ih hpages hmore⟩

/-- Each page after a page is the answer to a call for it. -/
theorem mem_pageEffects (job : Job) (first : Value) {pages : List Value} {v : Value}
    (hv : v ∈ pages) :
    ∃ arguments, .asked details arguments (.response v) ∈ pageEffects job first pages := by
  induction pages generalizing first with
  | nil => cases hv
  | cons w pages ih =>
    rcases List.mem_cons.mp hv with rfl | hv
    · exact ⟨_, List.mem_cons_self⟩
    · obtain ⟨arguments, hmem⟩ := ih w hv
      exact ⟨arguments, List.mem_cons_of_mem _ hmem⟩

/-- **What a job has told of are entries**, if the answers hold entries. -/
theorem Fetched.isEntry {job : Job} {entries : List Value} {l : List Effect}
    (h : Fetched settings job entries l)
    (hl : ∀ arguments a, .asked details arguments a ∈ l → HoldsEntries a) :
    ∀ e ∈ entries, IsEntry e := by
  obtain ⟨waiting, first, pages, -, -, -, -, hheld, rfl⟩ := h
  refine forall_entriesOfPages (fun v hv es hes => ?_) hheld
  have hasked : ∃ arguments, .asked details arguments (.response v) ∈
      pollEffects settings job waiting (.response first) ++ pageEffects job first pages := by
    rcases List.mem_cons.mp hv with rfl | hv
    · refine ⟨[("JobId", job.id)], List.mem_append_left _ ?_⟩
      exact List.mem_append_right _ List.mem_cons_self
    · obtain ⟨arguments, hmem⟩ := mem_pageEffects job first hv
      exact ⟨arguments, List.mem_append_right _ hmem⟩
  obtain ⟨arguments, hmem⟩ := hasked
  exact hl arguments _ hmem v es rfl hes

/-! ## One resource -/

/-- **What has become of a resource** and the identifier that it is tracked under. It is as it was,
    or it has what its own job has told: the entries, and the latest use among them. Or the entries
    of its job are mixed, and it has them beside the latest use from before. -/
inductive WrittenBack (settings : Settings) (l : List Effect) (res : Except Fault Unit)
    (t : Value × Resource) : Value × Resource → Prop where
  | kept : WrittenBack settings l res t t
  | taken {job : Job} {entries : List Value} {time : Value} {l' : List Effect} {c : Resource} :
      job.identifier = t.1 → Fetched settings job entries l' → l' <:+: l →
      latest entries = .ok time → c.use = (some (.list entries), some time) →
      WrittenBack settings l res t (t.1, c)
  | torn {job : Job} {entries : List Value} {l' : List Effect} {c : Resource} :
      job.identifier = t.1 → Fetched settings job entries l' → l' <:+: l →
      Mixed entries → res = .error .mistyped → c.use = (some (.list entries), t.2.use.2) →
      WrittenBack settings l res t (t.1, c)

/-- What cannot be written into stays as it is. -/
theorem setMember_of_not_writable {r : Resource} (h : ¬ r.isWritable) (name : String)
    (v : Value) : r.setMember name v = r := by
  obtain ⟨id, arn, account, region, service, kind, metadata⟩ := r
  cases metadata with
  | object ms => exact absurd rfl h
  | _ => rfl

section Resources

variable {l : List Effect} {res : Except Fault Unit}

/-- A job that is done is written back. -/
theorem History.writtenBack (h : History settings) (hl : h.effects <:+: l)
    {t : Value × Resource} (ht : h.job.identifier = t.1) :
    WrittenBack settings l res t (t.1, h.write t.2) := by
  by_cases hw : t.2.isWritable
  · exact .taken ht h.fetched hl h.latest (enriched_enrich hw h.entries h.time).use
  · have hsame : h.write t.2 = t.2 := by
      rw [History.write, enrich, setMember_of_not_writable hw, setMember_of_not_writable hw]
    rw [hsame]
    exact .kept

/-- Mixed entries are written, and the latest use stays. -/
theorem writtenBack_half {job : Job} {entries : List Value} {l' : List Effect}
    (h : Fetched settings job entries l') (hl : l' <:+: l) (hm : Mixed entries)
    (hr : res = .error .mistyped) {t : Value × Resource} (ht : job.identifier = t.1) :
    WrittenBack settings l res t (t.1, half entries t.2) := by
  by_cases hw : t.2.isWritable
  · exact .torn ht h hl hm hr (Resource.use_setMember_servicesLastAccessed hw _)
  · have hsame : half entries t.2 = t.2 := setMember_of_not_writable hw _ _
    rw [hsame]
    exact .kept

/-! ## All resources -/

/-- The jobs that are done are written back, each into its own resource. -/
theorem forall₂_writes (res : Except Fault Unit) {hs : List (History settings)}
    {targets : Named Resource} (hi : hs.map (·.job.identifier) = targets.map Prod.fst)
    (hl : hs.flatMap History.effects <:+: l) :
    List.Forall₂ (fun t c => WrittenBack settings l res t (t.1, c t.2)) targets
      (hs.map History.write) := by
  induction hs generalizing targets with
  | nil =>
    obtain rfl := List.map_eq_nil_iff.mp hi.symm
    exact .nil
  | cons h hs ih =>
    obtain ⟨t, targets, rfl, ht, hnames⟩ := List.map_eq_cons_iff.mp hi.symm
    rw [List.flatMap_cons] at hl
    have hfirst : h.effects <:+: l := (List.prefix_append _ _).isInfix.trans hl
    have hrest : hs.flatMap History.effects <:+: l := (List.suffix_append _ _).isInfix.trans hl
    exact .cons (h.writtenBack hfirst ht.symm) (ih hnames.symm hrest)

/-- **An altered report** has its first resources changed, and the others as they were. -/
theorem forall₂_alter {P : Value × Resource → Value × Resource → Prop} (hP : ∀ t, P t t)
    {r : Report} {before after : Named Resource} (ht : r.targets = before ++ after)
    {cs : List (Resource → Resource)}
    (hcs : List.Forall₂ (fun t c => P t (t.1, c t.2)) before cs) :
    List.Forall₂ P r.targets (r.alter cs).targets := by
  have hzip : List.Forall₂ P before (List.zipWith (fun t c => (t.1, c t.2)) before cs) := by
    clear ht
    induction hcs with
    | nil => exact .nil
    | cons h _ ih => exact .cons h ih
  have hsplit : (r.alter cs).targets =
      List.zipWith (fun t c => (t.1, c t.2)) before cs ++ after := by
    have hfront : List.zipWith (fun t (c : Resource → Resource) => (t.1, c t.2))
        (before ++ after) (cs ++ []) = _ := List.zipWith_append hcs.length_eq
    rw [List.append_nil, List.zipWith_nil_right, List.append_nil] at hfront
    rw [Report.targets_alter, ht, ← hcs.length_eq, List.drop_left, hfront]
  rw [hsplit, ht]
  exact List.rel_append hzip (List.forall₂_same.mpr fun t _ => hP t)

/-- The targets are those of the jobs before a job, then its own, and then the others. -/
theorem exists_target_of_job {hs : List (History settings)} {job : Job} {rest jobs : List Job}
    (hj : jobs = hs.map History.job ++ job :: rest) {targets : Named Resource}
    (hi : jobs.map Job.identifier = Named.names targets) :
    ∃ before t after, targets = before ++ t :: after ∧
      hs.map (·.job.identifier) = before.map Prod.fst ∧ job.identifier = t.1 := by
  subst hj
  rw [List.map_append, List.map_cons, List.map_map] at hi
  obtain ⟨before, others, rfl, hbefore, hothers⟩ := List.map_eq_append_iff.mp hi.symm
  obtain ⟨t, after, rfl, ht, -⟩ := List.map_eq_cons_iff.mp hothers
  exact ⟨before, t, after, rfl, hbefore.symm, ht.symm⟩

end Resources

/-- **All or nothing, but for mixed entries.** Let all pages of jobs hold entries. However the
    enrichment of a report ends, each resource is as it was, or it has the entries and the latest
    use that its own job has told. Only where the entries are mixed, the resource has them beside
    the latest use from before, and the enrichment has ended for that. -/
theorem attach_writesBack {r : Report} (hk : r.Keyed) (settings : Settings) {s : Script}
    (hs : s.Answers entryPromise) :
    List.Forall₂
      (WrittenBack settings (s.effects (attach settings r s).trace) (attach settings r s).result)
      r.targets (attach settings r s).draft.targets := by
  have hd := Run.does_outcome (attach settings) r s
  have hholds : ∀ arguments a,
      .asked details arguments a ∈ s.effects (attach settings r s).trace → HoldsEntries a :=
    fun arguments a h => Script.answers_effects entryPromise_unscripted hs h rfl
  generalize s.effects (attach settings r s).trace = l at hd hholds ⊢
  generalize (attach settings r s).result = res at hd ⊢
  generalize (attach settings r s).draft = r' at hd ⊢
  rcases attach_works hd with ⟨rfl, -, -⟩ | ⟨ss, l', hm, hi, rfl, hwork⟩
  · exact List.forall₂_same.mpr fun t _ => .kept
  have hjobs := identifiers_of_submissions hi
  have hstart : ([] : List (Resource → Resource)).length = ([] : Named Resource).length := rfl
  rcases each_does hk (List.nil_append r.targets).symm (same_self_of_matched hk hm) hstart hjobs
      (by rwa [Report.alter_nil]) with
    ⟨hs, hjob, rfl, -, rfl, rfl⟩ | ⟨hs, job, rest, l'', f, hjob, rfl, -, -, rfl, rfl⟩ |
    ⟨hs, job, rest, l'', e, cs, hjob, rfl, rfl, -, hcs, rfl⟩
  -- all jobs are done
  · have hnames : hs.map (·.job.identifier) = r.targets.map Prod.fst := by
      rw [← hjob, List.map_map] at hjobs
      exact hjobs
    exact forall₂_alter (fun _ => .kept) (List.append_nil _).symm
      (forall₂_writes _ hnames (List.suffix_append _ _).isInfix)
  -- the jobs before the one that is interrupted are done
  · obtain ⟨before, t, after, ht, hnames, -⟩ := exists_target_of_job hjob hjobs
    have hl : hs.flatMap History.effects <:+:
        ss.map Submission.effect ++ (hs.flatMap History.effects ++ l'') :=
      List.infix_append' _ _ _
    exact forall₂_alter (fun _ => .kept) ht (forall₂_writes _ hnames hl)
  -- the jobs before the one that ends with a fault are done, and that one may be torn
  · obtain ⟨before, t, after, ht, hnames, hown⟩ := exists_target_of_job hjob hjobs
    have hl : hs.flatMap History.effects <:+:
        ss.map Submission.effect ++ (hs.flatMap History.effects ++ l'') :=
      List.infix_append' _ _ _
    have hdone := forall₂_writes (.error e) hnames hl
    cases hcs with
    | nothing =>
      rw [List.append_nil]
      exact forall₂_alter (fun _ => .kept) ht hdone
    | @half entries hfetched hlatest =>
      have hl' : l'' <:+: ss.map Submission.effect ++ (hs.flatMap History.effects ++ l'') := by
        rw [← List.append_assoc]
        exact (List.suffix_append _ _).isInfix
      have hentries : ∀ v ∈ entries, IsEntry v :=
        hfetched.isEntry fun arguments a ha => hholds arguments a (hl'.subset ha)
      obtain ⟨rfl, hmixed⟩ := mixed_of_latest hentries hlatest
      have htorn := writtenBack_half hfetched hl' hmixed rfl hown
      rw [List.append_cons] at ht
      exact forall₂_alter (fun _ => .kept) ht (List.rel_append hdone (.cons htorn .nil))

/-! ## A sample -/

/-- The first moment of a year, on a local clock or in universal time. -/
def newYear (offset : Option Int) : Timestamp := ⟨2024, 1, 1, 0, 0, 0, 0, offset⟩

/-- An entry that tells of a time. -/
def entryAt (t : Timestamp) : Value := .object [("LastAuthenticated", .time t)]

theorem isEntry_entryAt (t : Timestamp) : IsEntry (entryAt t) := ⟨.time t, rfl, Or.inr ⟨t, rfl⟩⟩

/-- Answers to two jobs that have completed: the entries of the second one are mixed. -/
def mixedScript : Script :=
  ⟨[(generate, [.response (.object [("JobId", .text "1")]),
      .response (.object [("JobId", .text "2")])]),
    (details, [
      inState "COMPLETED" [("ServicesLastAccessed", .list [entryAt (newYear none)])],
      inState "COMPLETED" [("ServicesLastAccessed",
        .list [entryAt (newYear none), entryAt (newYear (some 0))])]])], []⟩

/-- A response that names entries holds them. -/
theorem holdsEntries_inState (state : String) {es : List Value} (h : ∀ e ∈ es, IsEntry e) :
    HoldsEntries (inState state [("ServicesLastAccessed", .list es)]) := by
  intro v es' hv hes
  cases hv
  have hheld : entriesOf (.object [("JobStatus", .text state),
      ("ServicesLastAccessed", .list es)]) = .ok es := rfl
  rw [hheld] at hes
  cases hes
  exact h

theorem answers_mixedScript : mixedScript.Answers entryPromise := by
  refine List.forall_mem_cons.mpr ⟨?_, List.forall_mem_singleton.mpr ?_⟩
  · intro a _ haction
    exact absurd haction (by decide)
  · refine List.forall_mem_cons.mpr ⟨fun _ => ?_, List.forall_mem_singleton.mpr fun _ => ?_⟩
    · exact holdsEntries_inState _ (List.forall_mem_singleton.mpr (isEntry_entryAt _))
    · exact holdsEntries_inState _ (List.forall_mem_cons.mpr
        ⟨isEntry_entryAt _, List.forall_mem_singleton.mpr (isEntry_entryAt _)⟩)

/-- The first resource has both, and the second one has entries and no latest use. -/
theorem attach_writesBack_mixed :
    sampleReport.Keyed ∧ mixedScript.Answers entryPromise ∧
      List.Forall₂
        (WrittenBack .default
          (mixedScript.effects (attach .default sampleReport mixedScript).trace)
          (attach .default sampleReport mixedScript).result)
        sampleReport.targets (attach .default sampleReport mixedScript).draft.targets ∧
      (attach .default sampleReport mixedScript).draft.targets.map
        (fun t => (t.2.use.1.isSome, t.2.use.2.isSome)) = [(true, true), (true, false)] :=
  ⟨keyed_sampleReport, answers_mixedScript,
    attach_writesBack keyed_sampleReport .default answers_mixedScript, by decide +kernel⟩

end LastAccessed

end IamInventory
