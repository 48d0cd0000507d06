/-
  Driving — a search comes to one end, however it is driven there.

  1. **Calls** — a caller may step a search, run it and ask it for traces, in any order (`Call`).
     Asking leaves the search as it is and a run is a number of steps, so whatever calls are made, the
     search has taken some number of steps (`Trailed.exists_afterCalls`).

  2. **One end** — once a search has ended steps leave it as it is, so all numbers of steps that end it
     lead to one explorer, and runs that set out from different points come together there
     (`Trailed.runs_agree`).

  3. **Traces** — steps add to the maps and change nothing in them (`Trailed.extends_of_steps`).  A
     lineage stays one when more is recorded (`Lineage.mono`), so a trace that was given once is given
     again, although the walk may by then follow more links (`Extends.witness_eq_ok`).

  4. **Statement** — `driving_agrees`.
-/
import GuardedReach.Proofs.Search.Answers

namespace GuardedReach

namespace Explorer

/-! ## Calls

    A list of calls, made on an explorer one after the other. -/

/-- What a caller can ask of a search. -/
inductive Call where
  | step
  | run (wanted : Event → Bool)
  | witness (goal : Fingerprint)

/-- The explorer after a call.  To ask for a trace changes nothing, whether there is one or not. -/
def afterCall (e : Explorer) : Call → Except SearchError Explorer
  | .step => e.step.map Prod.fst
  | .run wanted => (e.run wanted).map Finished.explorer
  | .witness _ => .ok e

/-- The explorer after several calls, one after the other. -/
def afterCalls (e : Explorer) : List Call → Except SearchError Explorer
  | [] => .ok e
  | call :: rest =>
    match e.afterCall call with
    | .error reason => .error reason
    | .ok f => f.afterCalls rest

variable {system : TransitionSystem} {goal : Goal} {settings : Settings} {trail : Trail}
  {e f : Explorer}

/-- Steps go on from where earlier steps have led. -/
theorem steps_add {n : Nat} (h : e.steps n = .ok f) (m : Nat) : e.steps (n + m) = f.steps m := by
  induction m with
  | zero => exact h
  | succ m ih => rw [← Nat.add_assoc, steps, steps, ih]

/-- A call takes some number of steps. -/
theorem Trailed.exists_afterCall (h : Trailed system goal settings trail e) (call : Call) :
    ∃ n f, e.afterCall call = .ok f ∧ e.steps n = .ok f := by
  cases call with
  | step =>
    obtain ⟨next, events, hstep⟩ := h.tree.exists_step
    refine ⟨1, next, ?_, steps_succ_eq_ok_iff.mpr ⟨e, events, rfl, hstep⟩⟩
    show e.step.map Prod.fst = .ok next
    rw [hstep]
    rfl
  | run wanted =>
    obtain ⟨last, outcome, hsteps, -, -, hrun⟩ := h.exists_run
    obtain ⟨events, hrun⟩ := hrun wanted
    refine ⟨stepLimit, last, ?_, hsteps⟩
    show (e.run wanted).map Finished.explorer = .ok last
    rw [hrun]
    rfl
  | witness goal => exact ⟨0, e, rfl, rfl⟩

/-- Any calls can be made, and they take some number of steps. -/
theorem Trailed.exists_afterCalls (h : Trailed system goal settings trail e) (calls : List Call) :
    ∃ n f trail', e.afterCalls calls = .ok f ∧ e.steps n = .ok f ∧
      Trailed system goal settings trail' f := by
  induction calls generalizing trail e with
  | nil => exact ⟨0, e, trail, rfl, rfl, h⟩
  | cons call rest ih =>
    obtain ⟨n, g, hcall, hn⟩ := h.exists_afterCall call
    obtain ⟨trail', htrail⟩ := h.of_steps hn
    obtain ⟨m, f, trail'', hrest, hm, htrail'⟩ := ih htrail
    refine ⟨n + m, f, trail'', ?_, (steps_add hn m).trans hm, htrail'⟩
    rw [afterCalls, hcall]
    exact hrest

/-! ## One end

    Two ways to an end are two numbers of steps, and one of them is the larger. -/

/-- **Runs come together.**  Where a run ends, and with what outcome, is the same whether it sets out
    earlier or later. -/
theorem Trailed.runs_agree (h : Trailed system goal settings trail e) {n : Nat}
    (hn : e.steps n = .ok f) :
    ∃ last outcome, e.steps stepLimit = .ok last ∧
      (∀ wanted, ∃ events, e.run wanted = .ok { explorer := last, outcome, events }) ∧
      ∀ wanted, ∃ events, f.run wanted = .ok { explorer := last, outcome, events } := by
  obtain ⟨trail', htrail⟩ := h.of_steps hn
  obtain ⟨last, outcome, hsteps, ht, houtcome, hrun⟩ := h.exists_run
  obtain ⟨last', outcome', hsteps', -, houtcome', hrun'⟩ := htrail.exists_run
  have hlate : e.steps (n + stepLimit) = .ok last :=
    steps_of_terminal hsteps ht (Nat.le_add_left stepLimit n)
  obtain rfl := Except.ok.inj ((hlate.symm.trans (steps_add hn stepLimit)).trans hsteps')
  obtain rfl := Except.ok.inj (houtcome.symm.trans houtcome')
  exact ⟨last, outcome, hsteps, hrun, hrun'⟩

/-! ## Traces

    What was answered once is answered again. -/

/-- Steps lose nothing. -/
theorem Trailed.extends_of_steps (h : Trailed system goal settings trail e) {n : Nat}
    (hn : e.steps n = .ok f) : Extends e f := by
  induction n generalizing f with
  | zero =>
    obtain rfl := Except.ok.inj hn
    exact Extends.refl e
  | succ n ih =>
    obtain ⟨g, events, hg, hstep⟩ := steps_succ_eq_ok_iff.mp hn
    obtain ⟨trail', htrail⟩ := h.of_steps hg
    exact (ih hg).trans (htrail.tree.extends_stepped (stepped_of_step hstep))

/-- A trace that was given is given again when more is recorded. -/
theorem Extends.witness_eq_ok {expanded : List Fingerprint} (hx : Extends e f)
    (h : Tree e expanded) {fp : Fingerprint} {w : Witness} (hw : e.witness fp = .ok w) :
    f.witness fp = .ok w := by
  have hlineage := (h.lineage_of_witness hw).mono hx.parents hx.store
  rw [← hx.system] at hlineage
  exact hlineage.reconstruct_eq_ok

/-! ## Statement

    However a search is driven, it comes to one end, and no trace is ever taken back. -/

/-- **However a search is driven.**  Any calls can be made on a search, and any more after them.  If it
    had ended the later calls leave it as it was; every link, every state stored and every trace that
    could be had before can be had after them; and a run that is made then ends where a run from the
    start ends, with the same outcome, as does another run after it. -/
theorem driving_agrees (h : Explorer.start system goal settings = .ok e)
    (earlier later : List Call) :
    ∃ f g, e.afterCalls earlier = .ok f ∧ f.afterCalls later = .ok g ∧
      (f.status.isTerminal = true → g = f) ∧
      (∀ (fp : Fingerprint) (link : Link), f.parents[fp]? = some link →
        g.parents[fp]? = some link) ∧
      (∀ (fp : Fingerprint) (s : State), f.store[fp]? = some s → g.store[fp]? = some s) ∧
      (∀ fp w, f.witness fp = .ok w → g.witness fp = .ok w) ∧
      ∀ wanted wanted' wanted'', ∃ fresh resumed again,
        e.run wanted = .ok fresh ∧ g.run wanted' = .ok resumed ∧
        resumed.explorer.run wanted'' = .ok again ∧
        (resumed.explorer = fresh.explorer ∧ resumed.outcome = fresh.outcome) ∧
        again.explorer = fresh.explorer ∧ again.outcome = fresh.outcome := by
  have hstart := Trailed.start h
  obtain ⟨n, f, trail, hearlier, hn, htrail⟩ := hstart.exists_afterCalls earlier
  obtain ⟨m, g, trail', hlater, hm, -⟩ := htrail.exists_afterCalls later
  have hx := htrail.extends_of_steps hm
  have hg : e.steps (n + m) = .ok g := (steps_add hn m).trans hm
  refine ⟨f, g, hearlier, hlater, ?_, hx.parents, hx.store, ?_, ?_⟩
  · intro ht
    have hstays : f.steps m = .ok f := steps_of_terminal (n := 0) rfl ht (Nat.zero_le m)
    exact Except.ok.inj (hm.symm.trans hstays)
  · intro fp w hw
    exact hx.witness_eq_ok htrail.tree hw
  · intro wanted wanted' wanted''
    obtain ⟨last, outcome, hlast, hfresh, hresumed⟩ := hstart.runs_agree hg
    obtain ⟨last', outcome', hlast', hfresh', hagain⟩ := hstart.runs_agree hlast
    obtain rfl := Except.ok.inj (hlast.symm.trans hlast')
    obtain ⟨events, hfresh⟩ := hfresh wanted
    obtain ⟨_, hfresh'⟩ := hfresh' wanted
    obtain ⟨_, hresumed⟩ := hresumed wanted'
    obtain ⟨_, hagain⟩ := hagain wanted''
    have houtcome : outcome' = outcome :=
      congrArg Finished.outcome (Except.ok.inj (hfresh'.symm.trans hfresh))
    exact ⟨_, _, _, hfresh, hresumed, hagain, ⟨rfl, rfl⟩, rfl, houtcome⟩

/-- Two steps and a trace towards four units in the big one of jugs of three and five, then a run and
    a step more: a run after them finds what a run from the start finds. -/
theorem jugs_driving_agrees :
    ∃ (system : TransitionSystem) (goal : Goal) (e f g : Explorer) (fresh resumed : Finished)
      (w : Witness),
      (waterJugs 3 5 4).build = .ok (system, goal) ∧
      Explorer.start system goal Settings.default = .ok e ∧
      e.afterCalls [.step, .witness e.root, .step] = .ok f ∧
      f.afterCalls [.run fun _ => true, .step] = .ok g ∧
      e.run (fun _ => false) = .ok fresh ∧ g.run (fun _ => true) = .ok resumed ∧
      resumed.explorer = fresh.explorer ∧ fresh.outcome = .found w ∧ resumed.outcome = .found w := by
  have hquery : ((waterJugs 3 5 4).finish Settings.default).any
      (fun finished => finished.outcome.witness?.isSome) = true := by decide +kernel
  obtain ⟨finished, hfinish, hfound⟩ := (Option.any_eq_true ..).mp hquery
  obtain ⟨system, goal, e, hbuild, hstart, hrun⟩ := Puzzle.exists_of_finish hfinish
  obtain ⟨w, hsome⟩ := Option.isSome_iff_exists.mp hfound
  obtain ⟨f, g, hearlier, hlater, -, -, -, -, hruns⟩ :=
    driving_agrees hstart [.step, .witness e.root, .step] [.run fun _ => true, .step]
  obtain ⟨fresh, resumed, -, hfresh, hresumed, -, ⟨hexplorer, houtcome⟩, -⟩ :=
    hruns (fun _ => false) (fun _ => true) fun _ => false
  obtain rfl := Except.ok.inj (hrun.symm.trans hfresh)
  have hw := eq_found_of_witness? hsome
  exact ⟨system, goal, e, f, g, finished, resumed, w, hbuild, hstart, hearlier, hlater, hrun,
    hresumed, hexplorer, hw, houtcome.trans hw⟩

end Explorer

end GuardedReach
