import ClassBindings.Proofs.Completion

/-! # Errors stay with the classes that have them

Putting whole entries in place can leave base links that lead to positions without a class.  As long
as each entry carries its own position and links form no loop, resolving such a package goes as far
as it can.  A class is `Stuck` if it has not been processed and misses a position; it ends
preprocessed, and is reported once, with that position.  Every other class is finalized.

What is above a class that misses nothing misses nothing either, and comes first in the order of
resolution, so a stuck class never holds up one that is not.  A run over the first classes of the
order thus leaves each of them as `Settles` says, with the report `runReport`; this is kept by each
further class (`Loopless.foldl_resolveNext`). -/
namespace ClassBindings.Package

variable {p q r : Package} {id : ClassId} {c : NativeClass} {e : BindError}

/-- The class has not been processed, and cannot be, since it misses a position. -/
def Stuck (p : Package) (id missing : ClassId) : Prop :=
  ∃ c, p.class? id = some c ∧ c.phase < .processed ∧ p.Misses id missing

/-- The error on which the resolution of a class ends: the one of the walk to its ancestors, unless
that is behind it. -/
def failure? (p : Package) (id : ClassId) : Option BindError :=
  (p.class? id).bind fun c =>
    if c.phase < .processed then
      match p.ancestorChain id with
      | .ok _ => none
      | .error e => some e
    else none

/-- **A class fails if it is stuck**, and with the position that it misses. -/
theorem Loopless.failure?_eq_some_iff (h : p.Loopless) :
    p.failure? id = some e ↔ ∃ m, p.Stuck id m ∧ e = .classNotFound m.text := by
  rw [failure?]
  cases hc : p.class? id with
  | none => simp [Stuck, hc]
  | some c =>
    rw [Option.bind_some]
    by_cases hphase : c.phase < .processed
    · rw [if_pos hphase]
      have hstuck (m : ClassId) : p.Stuck id m ↔ p.Misses id m := by simp [Stuck, hc, hphase]
      simp only [hstuck]
      rcases h.ancestorChain_cases hc with ⟨ids, hids, hok⟩ | ⟨m, hm, herror⟩
      · simp [hok, fun m => hids.not_misses (m := m) hc]
      · rw [herror]
        constructor
        · intro he
          cases he
          exact ⟨m, hm, rfl⟩
        · rintro ⟨m', hm', rfl⟩
          rw [hm.unique hm']
    · rw [if_neg hphase]
      simp [Stuck, hc, hphase]

/-- A class that misses nothing does not fail, and neither does one that has been processed. -/
theorem Loopless.failure?_eq_none_iff (h : p.Loopless) (hc : p.class? id = some c) :
    p.failure? id = none ↔ .processed ≤ c.phase ∨ ∀ m, ¬p.Misses id m := by
  rw [Option.eq_none_iff_forall_ne_some]
  have hstuck (m : ClassId) : p.Stuck id m ↔ c.phase < .processed ∧ p.Misses id m := by
    simp [Stuck, hc]
  constructor
  · intro hnone
    by_cases hphase : c.phase < .processed
    · exact Or.inr fun m hm =>
        hnone _ (h.failure?_eq_some_iff.2 ⟨m, (hstuck m).2 ⟨hphase, hm⟩, rfl⟩)
    · exact Or.inl (Phase.not_lt.1 hphase)
  · rintro hok e he
    obtain ⟨m, hm, -⟩ := h.failure?_eq_some_iff.1 he
    obtain ⟨hphase, hmisses⟩ := (hstuck m).1 hm
    rcases hok with hprocessed | hall
    · exact Phase.not_le.2 hphase hprocessed
    · exact hall m hmisses

/-! ## One class -/

/-- The run on this class was refused at the second step, and no other class has changed. -/
def Halts (p : Package) (id : ClassId) (e : BindError) (run : Edit Package Unit) : Prop :=
  ∃ q d, run p = .error e q ∧ Passes p q ∧ q.class? id = some d ∧ d.phase = .preprocessed ∧
    ∀ id', id' ≠ id → q.class? id' = p.class? id'

theorem process_eq_error_of_chain (hc : p.class? id = some c) (hphase : c.phase = .preprocessed)
    (hchain : p.ancestorChain id = .error e) : process id p = .error e p := by
  have hcheck : c.checkPhase .processed = .ok () := by
    rw [NativeClass.checkPhase_eq_ok_iff, hphase]
    rfl
  rw [process, Edit.bind_get, Edit.bind_check_ok (getClass_of_class? hc), Edit.bind_check_ok hcheck,
    Edit.bind_check_error hchain]

theorem halts_of_preprocessed (hc : p.class? id = some c) (hphase : c.phase = .preprocessed)
    (hchain : p.ancestorChain id = .error e) :
    p.Halts id e (do process id; postprocess id) := by
  refine ⟨p, c, ?_, .refl, hc, hphase, fun _ _ => rfl⟩
  rw [Edit.bind_apply_error (process_eq_error_of_chain hc hphase hchain)]

/-- **A class whose ancestors are not found stays preprocessed**, declared or preprocessed. -/
theorem halts_resolveClass (hc : p.class? id = some c) (hphase : c.phase < .processed)
    (hchain : p.ancestorChain id = .error e) : p.Halts id e (resolveClass id) := by
  rw [Halts, resolveClass_eq hc]
  cases hcphase : c.phase with
  | declared =>
    have hfirst := preprocess_eq_ok_iff.2 ⟨c, hc, hcphase, rfl⟩
    have hd : p.Advances id c _ := .preprocess hcphase
    have hchain' := (ancestorChain_congr (sameBases_putClass hc hd.base_eq) id).trans hchain
    obtain ⟨q, d, hrun, hpq, hq, hdphase, hothers⟩ :=
      halts_of_preprocessed (class?_putClass_self hc _) rfl hchain'
    refine ⟨q, d, ?_, .head (.advance hc hd) hpq, hq, hdphase, fun id' hid => ?_⟩
    · show (do preprocess id; process id; postprocess id : Edit Package Unit) p = _
      rw [Edit.bind_apply_ok hfirst]
      exact hrun
    · rw [hothers id' hid, class?_putClass_of_ne hid]
  | preprocessed => exact halts_of_preprocessed hc hcphase hchain
  | processed =>
    rw [hcphase] at hphase
    exact absurd hphase (by decide)
  | finalized =>
    rw [hcphase] at hphase
    exact absurd hphase (by decide)

/-! ## A run over several classes -/

/-- What a run that started from `p` has made of a class by `q`. -/
def Settles (p q : Package) (id : ClassId) : Prop :=
  ∃ d, q.class? id = some d ∧
    d.phase = if (p.failure? id).isSome then .preprocessed else .finalized

/-- The report on a run that started from `p`, went over these classes and left `q`. -/
def runReport (p q : Package) (ids : List ClassId) : Report where
  resolved := ids.countP fun id => (q.class? id).any (·.isFinalized)
  diagnostics := ids.flatMap q.reportsOf
  errors := ids.filterMap fun id => (p.failure? id).map (id, ·)

/-- One class more. -/
theorem runReport_append {done : List ClassId} (hsame : ∀ a ∈ done, r.class? a = q.class? a) :
    p.runReport r (done ++ [id]) =
      { resolved := (p.runReport q done).resolved +
          if (r.class? id).any (·.isFinalized) then 1 else 0
        diagnostics := (p.runReport q done).diagnostics ++ r.reportsOf id
        errors := (p.runReport q done).errors ++ ((p.failure? id).map (id, ·)).toList } := by
  have hreports : done.flatMap r.reportsOf = done.flatMap q.reportsOf :=
    List.flatMap_congr fun a ha => by rw [reportsOf, reportsOf, hsame a ha]
  have hcount : done.countP (fun id => (r.class? id).any (·.isFinalized)) =
      done.countP fun id => (q.class? id).any (·.isFinalized) :=
    List.countP_congr fun a ha => by rw [hsame a ha]
  have herrors : [id].filterMap (fun id => (p.failure? id).map (id, ·)) =
      ((p.failure? id).map (id, ·)).toList := by
    cases h : p.failure? id <;> simp [h]
  simp only [runReport, List.countP_append, List.countP_singleton, List.flatMap_append,
    List.flatMap_singleton, List.filterMap_append, hreports, hcount, herrors]

theorem resolveNext_error {report : Report} (herror : resolveClass id p = .error e q)
    (hc : q.class? id = some c) (hphase : c.phase = .preprocessed) :
    resolveNext report id p =
      ({ report with
          diagnostics := report.diagnostics ++ q.reportsOf id
          errors := report.errors ++ [(id, e)] }, q) := by
  simp [resolveNext, herror, hc, reportsOf, NativeClass.isFinalized, Phase.isFinalized, hphase]

/-- In an order with known bases first, all that is above a class comes before it. -/
theorem KnownBasesFirst.mem_done {ids done rest above : List ClassId} (h : p.KnownBasesFirst ids)
    (hsplit : ids = done ++ id :: rest) (hc : p.class? id = some c)
    (habove : p.Lineage c.base above) : ∀ a ∈ above, a ∈ done := by
  generalize hnext : c.base = next at habove
  induction habove generalizing id c done rest with
  | root => exact fun a ha => nomatch ha
  | @base b cb bs hb _ ih =>
    have hmem := h.base done id rest hsplit b (.of_class? hc hnext) cb hb
    obtain ⟨before, after, rfl⟩ := List.append_of_mem hmem
    have hsplit' : ids = before ++ b :: (after ++ id :: rest) := by
      rw [hsplit, List.append_assoc, List.cons_append]
    intro a ha
    rcases List.mem_cons.1 ha with rfl | ha
    · exact hmem
    · exact List.mem_append_left _ (ih hsplit' hb rfl a ha)

/-- A class that does not fail is ready once all before it in the order are settled: what is above
it does not fail either. -/
theorem Loopless.ready_of_settles (h : p.Loopless) {ids done rest : List ClassId}
    (hids : p.KnownBasesFirst ids) (hsplit : ids = done ++ id :: rest)
    (hdone : ∀ a ∈ done, p.Settles q a) (hpq : Passes p q) (hc : p.class? id = some c)
    (hphase : c.phase < .processed) (hnone : p.failure? id = none) : q.Ready id := by
  rcases h.ancestorChain_cases hc with ⟨above, habove, hok⟩ | ⟨m, hm, _⟩
  · refine ready_of_allProcessed ((ancestorChain_congr hpq.sameBases id).trans hok) fun a ha => ?_
    obtain ⟨before, after, rfl⟩ := List.append_of_mem ha
    obtain ⟨b, hb, hafter⟩ := habove.above
    have hnone' : p.failure? a = none :=
      (h.failure?_eq_none_iff hb).2 (Or.inr fun m => hafter.not_misses hb)
    obtain ⟨d, hd, hdphase⟩ := hdone a (hids.mem_done hsplit hc habove a ha)
    rw [hnone'] at hdphase
    exact ⟨d, hd, hdphase ▸ (by decide)⟩
  · rcases (h.failure?_eq_none_iff hc).1 hnone with hprocessed | hall
    · exact absurd hprocessed (Phase.not_le.2 hphase)
    · exact absurd hm (hall m)

/-- **What one class adds to a run**: it is settled, reported, and no other class has changed. -/
theorem Loopless.resolveNext_settles (h : p.Loopless) {ids done rest : List ClassId}
    (hids : p.KnownBasesFirst ids) (hsplit : ids = done ++ id :: rest) (hpq : Passes p q)
    (hdone : ∀ a ∈ done, p.Settles q a) (hsame : q.class? id = p.class? id) :
    ∃ r, resolveNext (p.runReport q done) id q = (p.runReport r (done ++ [id]), r) ∧
      Passes q r ∧ p.Settles r id ∧ ∀ id', id' ≠ id → r.class? id' = q.class? id' := by
  obtain ⟨c, hc⟩ := (hids.mem_iff id).1 (by rw [hsplit]; simp)
  have hcq : q.class? id = some c := hsame.trans hc
  have hnot : ∀ a ∈ done, a ≠ id := by
    have hnodup := hids.nodup
    rw [hsplit] at hnodup
    exact fun a ha => (List.nodup_append.1 hnodup).2.2 a ha id List.mem_cons_self
  cases hfail : p.failure? id with
  | none =>
    obtain ⟨r, d, hok, hqr, hd, hphase, hothers⟩ := finalizes_resolveClass hcq fun hphase =>
      h.ready_of_settles hids hsplit hdone hpq hc hphase hfail
    refine ⟨r, ?_, hqr, ⟨d, hd, by rw [hphase, hfail]; rfl⟩, hothers⟩
    rw [resolveNext_ok hok hd hphase, runReport_append fun a ha => hothers a (hnot a ha), hfail, hd]
    simp [NativeClass.isFinalized, Phase.isFinalized, hphase]
  | some e =>
    obtain ⟨m, ⟨c', hc', hphase, hm⟩, rfl⟩ := h.failure?_eq_some_iff.1 hfail
    rw [hc] at hc'
    cases hc'
    have hchain : q.ancestorChain id = .error (.classNotFound m.text) := by
      rw [ancestorChain_congr hpq.sameBases]
      rcases h.ancestorChain_cases hc with ⟨above, habove, _⟩ | ⟨m', hm', herror⟩
      · exact absurd hm (habove.not_misses hc)
      · rw [herror, hm.unique hm']
    obtain ⟨r, d, herror, hqr, hd, hdphase, hothers⟩ := halts_resolveClass hcq hphase hchain
    refine ⟨r, ?_, hqr, ⟨d, hd, by rw [hdphase, hfail]; rfl⟩, hothers⟩
    rw [resolveNext_error herror hd hdphase, runReport_append fun a ha => hothers a (hnot a ha),
      hfail, hd]
    simp [NativeClass.isFinalized, Phase.isFinalized, hdphase]

/-- **What a run leaves**: every class is settled, and reported as it is then. -/
theorem Loopless.foldl_resolveNext (h : p.Loopless) {ids : List ClassId}
    (hids : p.KnownBasesFirst ids) (done rest : List ClassId) (hsplit : ids = done ++ rest)
    {q : Package} (hpq : Passes p q) (hdone : ∀ a ∈ done, p.Settles q a)
    (hrest : ∀ a ∉ done, q.class? a = p.class? a) :
    ∃ r, rest.foldl (fun s id => resolveNext s.1 id s.2) (p.runReport q done, q) =
        (p.runReport r ids, r) ∧
      Passes p r ∧ ∀ a ∈ ids, p.Settles r a := by
  -- The classes done with are settled; those still to come are as they were at the start.
  induction rest generalizing done q with
  | nil =>
    rw [List.append_nil] at hsplit
    subst hsplit
    exact ⟨q, rfl, hpq, hdone⟩
  | cons id rest ih =>
    have hid : id ∉ done := by
      have hnodup := hids.nodup
      rw [hsplit] at hnodup
      exact fun hmem => (List.nodup_append.1 hnodup).2.2 id hmem id List.mem_cons_self rfl
    obtain ⟨r, hnext, hqr, hsettles, hothers⟩ :=
      h.resolveNext_settles hids hsplit hpq hdone (hrest id hid)
    have hsplit' : ids = (done ++ [id]) ++ rest := by
      rw [hsplit, List.append_assoc, List.singleton_append]
    rw [List.foldl_cons, hnext]
    refine ih (done ++ [id]) hsplit' (hpq.trans hqr) (fun a ha => ?_) fun a ha => ?_
    · rcases List.mem_append.1 ha with ha | ha
      · obtain ⟨d, hd, hphase⟩ := hdone a ha
        exact ⟨d, (hothers a fun he => hid (he ▸ ha)).trans hd, hphase⟩
      · rwa [List.mem_singleton.1 ha]
    · rw [List.mem_append, not_or, List.mem_singleton] at ha
      rw [hothers a ha.2, hrest a ha.1]

/-! ## Every class -/

/-- Counting classes by position is counting them. -/
theorem countP_positions (test : NativeClass → Bool) (p : Package) :
    p.positions.countP (fun id => (p.class? id).any test) = p.classes.countP test := by
  have hmap : (List.range p.classes.length).map (p.classes[·]?) = p.classes.map some := by
    refine List.ext_getElem? fun i => ?_
    by_cases hi : i < p.classes.length
    · simp [hi]
    · simp [hi]
  have hcount := congrArg (List.countP (·.any test)) hmap
  rw [List.countP_map, List.countP_map] at hcount
  rw [positions, List.countP_map]
  exact hcount

/-- The report and the package that a run over all classes of `p` should end with. -/
structure Isolates (p : Package) (report : Report) (q : Package) : Prop where
  /-- No class comes or goes. -/
  length : q.classes.length = p.classes.length
  /-- A class is finalized unless it is stuck. -/
  finalized_iff : ∀ id c d, p.class? id = some c → q.class? id = some d →
    (d.phase = .finalized ↔ .processed ≤ c.phase ∨ ∀ m, ¬p.Misses id m)
  /-- The others have gone as far as they can. -/
  preprocessed : ∀ id d, q.class? id = some d → d.phase ≠ .finalized → d.phase = .preprocessed
  /-- No class is reported twice. -/
  errors_nodup : (report.errors.map (·.1)).Nodup
  /-- What is reported are the stuck classes, each with the position that it misses. -/
  errors_iff : ∀ id e, (id, e) ∈ report.errors ↔ ∃ m, p.Stuck id m ∧ e = .classNotFound m.text
  /-- The finalized classes are counted. -/
  resolved : report.resolved = q.classes.countP (·.isFinalized)
  /-- What is reported of a class is what the class has to report, stuck or not. -/
  diagnostics : ∀ id d, q.class? id = some d → report.diagnosticsFor id = d.diagnostics

theorem mem_errors_runReport {ids : List ClassId} :
    (id, e) ∈ (p.runReport q ids).errors ↔ id ∈ ids ∧ p.failure? id = some e := by
  rw [runReport, List.mem_filterMap]
  constructor
  · rintro ⟨a, ha, hfail⟩
    obtain ⟨e', he', hpair⟩ := Option.map_eq_some_iff.1 hfail
    cases hpair
    exact ⟨ha, he'⟩
  · rintro ⟨hid, hfail⟩
    exact ⟨id, hid, by rw [hfail]; rfl⟩

theorem nodup_errors_runReport {ids : List ClassId} (h : ids.Nodup) :
    ((p.runReport q ids).errors.map (·.1)).Nodup := by
  have hmap : (p.runReport q ids).errors.map (·.1) =
      ids.filter fun id => (p.failure? id).isSome := by
    rw [runReport, List.map_filterMap, ← List.filterMap_eq_filter]
    refine List.filterMap_congr fun id _ => ?_
    cases hfail : p.failure? id <;> simp [Option.guard, hfail]
  rw [hmap]
  exact h.filter _

theorem Loopless.resolveEach_isolates (h : p.Loopless) {ids : List ClassId}
    (hids : p.KnownBasesFirst ids) :
    ∃ report q, resolveEach ids p = (report, q) ∧ p.Isolates report q := by
  obtain ⟨q, hrun, hpq, hall⟩ :=
    h.foldl_resolveNext hids [] ids rfl .refl (fun a ha => nomatch ha) (fun _ _ => rfl)
  have hmem (id : ClassId) (d : NativeClass) (hd : q.class? id = some d) : id ∈ ids := by
    obtain ⟨c, hc, _⟩ := hpq.sameBases.symm.class?_eq_some hd
    exact (hids.mem_iff id).2 ⟨c, hc⟩
  have hphase (id : ClassId) (d : NativeClass) (hd : q.class? id = some d) :
      d.phase = if (p.failure? id).isSome then .preprocessed else .finalized := by
    obtain ⟨d', hd', hphase⟩ := hall id (hmem id d hd)
    rw [hd] at hd'
    cases hd'
    exact hphase
  refine ⟨p.runReport q ids, q, hrun, hpq.length_eq, ?_, ?_, nodup_errors_runReport hids.nodup, ?_,
    ?_, fun id d hd => diagnosticsFor_eq rfl hids.nodup (hmem id d hd) hd⟩
  · intro id c d hc hd
    rw [← h.failure?_eq_none_iff hc, hphase id d hd]
    cases p.failure? id <;> simp
  · intro id d hd hnot
    rw [hphase id d hd] at hnot ⊢
    rw [if_pos (not_not.1 fun hnone => hnot (if_neg hnone))]
  · intro id e
    rw [mem_errors_runReport, ← h.failure?_eq_some_iff]
    refine and_iff_right_of_imp fun hfail => ?_
    obtain ⟨m, ⟨c, hc, _⟩, _⟩ := h.failure?_eq_some_iff.1 hfail
    exact (hids.mem_iff id).2 ⟨c, hc⟩
  · show ids.countP _ = _
    rw [hids.perm.countP_eq, positions, ← hpq.length_eq, ← positions, countP_positions]

/-- **Errors are isolated.**  Let each entry of a package carry its own position and base links form
no loop; they may lead nowhere, and the classes may be in any phase.  A run over all classes then
finalizes exactly those that had been processed or miss nothing.  Every other class ends
preprocessed and is reported once, with the position that it misses, and nothing else is reported.
So it is for a run through the classes in any other order that has known bases first. -/
theorem resolveAll_isolates (h : p.Loopless) (hown : p.OwnPositions) :
    (∃ report q, p.resolveAll = .ok report q ∧ p.Isolates report q) ∧
    ∀ ids, p.KnownBasesFirst ids →
      ∃ report q, resolveEach ids p = (report, q) ∧ p.Isolates report q := by
  refine ⟨?_, fun ids hids => h.resolveEach_isolates hids⟩
  obtain ⟨ids, hids, hfirst⟩ := h.resolutionOrder_ok hown
  obtain ⟨report, q, hrun, hisolates⟩ := h.resolveEach_isolates hfirst
  exact ⟨report, q, resolveAll_eq hids hrun, hisolates⟩

/-- Nodes, meshes derived from them, lights, and skins derived from meshes.  Nodes were put in place
with a base that is no class, skins as a class that has been processed. -/
def strandedPackage : Package :=
  Operation.run meshPackage
    [.replaceClass ⟨0⟩
      { id := ⟨0⟩, name := "Node", nativeName := "scene::Node", module := ⟨0⟩, base := some ⟨9⟩ },
    .registerClass ⟨0⟩ "Light" "scene::Light", .registerClass ⟨0⟩ "Skin" "scene::Skin",
    .replaceClass ⟨3⟩
      { id := ⟨3⟩, name := "Skin", nativeName := "scene::Skin", module := ⟨0⟩, base := some ⟨1⟩,
        phase := .processed }]

/-- Meshes stay where they are, for the base of their base, and skins are finalized. -/
theorem resolveAll_isolates_stranded :
    ∃ report q d, strandedPackage.resolveAll = .ok report q ∧
      strandedPackage.Isolates report q ∧
      (⟨1⟩, .classNotFound (ClassId.text ⟨9⟩)) ∈ report.errors ∧
      q.class? ⟨3⟩ = some d ∧ d.phase = .finalized ∧
      ∃ ids, strandedPackage.KnownBasesFirst ids ∧
        ∃ report q, resolveEach ids strandedPackage = (report, q) ∧
          strandedPackage.Isolates report q := by
  -- Links go to earlier classes, and to the position 9 that is none.
  let rank (id : ClassId) : Nat := if id.index < 4 then id.index + 1 else 0
  have hlinks : ∀ i < 4, (strandedPackage.class? ⟨i⟩).all
      (fun c => c.id = ⟨i⟩ ∧ c.base.all (rank · < rank ⟨i⟩)) := by decide +kernel
  have hall {id : ClassId} {c : NativeClass} (hc : strandedPackage.class? id = some c) :
      c.id = id ∧ c.base.all (rank · < rank id) := by
    have hlength : strandedPackage.classes.length = 4 := by decide +kernel
    have hlink := hlinks id.index (hlength ▸ lt_length_of_class? hc)
    rw [hc] at hlink
    simpa using hlink
  have hown : strandedPackage.OwnPositions := fun _ _ hc => (hall hc).1
  have hloopless : strandedPackage.Loopless := by
    refine loopless_of_rank rank fun id c base hc hbase => ?_
    have hdown := (hall hc).2
    rw [hbase] at hdown
    exact of_decide_eq_true hdown
  have hmesh : (strandedPackage.class? ⟨1⟩).any
      (fun c => c.phase < .processed ∧ c.base = some ⟨0⟩) := by decide +kernel
  have hnode : (strandedPackage.class? ⟨0⟩).any (·.base = some ⟨9⟩) := by decide +kernel
  have hskin : (strandedPackage.class? ⟨3⟩).any (·.phase = .processed) := by decide +kernel
  have hmissing : strandedPackage.class? ⟨9⟩ = none := by decide +kernel
  obtain ⟨mesh, hmesh, hsome⟩ := (Option.any_eq_true _ _).1 hmesh
  obtain ⟨hphase, hmeshBase⟩ := of_decide_eq_true hsome
  obtain ⟨node, hnode, hsome⟩ := (Option.any_eq_true _ _).1 hnode
  have hnodeBase := of_decide_eq_true hsome
  obtain ⟨skin, hskin, hsome⟩ := (Option.any_eq_true _ _).1 hskin
  have hprocessed := of_decide_eq_true hsome
  have hstuck : strandedPackage.Stuck ⟨1⟩ ⟨9⟩ :=
    ⟨mesh, hmesh, hphase, .head (.of_class? hmesh hmeshBase)
      (.single (.of_class? hnode hnodeBase)), hmissing⟩
  obtain ⟨⟨report, q, hrun, hisolates⟩, horders⟩ := resolveAll_isolates hloopless hown
  obtain ⟨ids, _, hids⟩ := hloopless.resolutionOrder_ok hown
  have hthere : (q.class? ⟨3⟩).isSome := by
    have hlt := lt_length_of_class? hskin
    rw [← hisolates.length] at hlt
    rw [class?, List.getElem?_eq_getElem hlt]
    rfl
  obtain ⟨d, hd⟩ := Option.isSome_iff_exists.1 hthere
  refine ⟨report, q, d, hrun, hisolates, (hisolates.errors_iff _ _).2 ⟨_, hstuck, rfl⟩, hd, ?_,
    ids, hids, horders ids hids⟩
  exact (hisolates.finalized_iff _ _ _ hskin hd).2 (Or.inl (hprocessed ▸ Nat.le_refl _))

end ClassBindings.Package
