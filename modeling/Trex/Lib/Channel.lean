/-
# A controller, a worker, and what is between them

A controller starts, pauses, resumes, updates and stops runs of a worker by commands in a FIFO
queue. Every run has a number, and later runs have larger numbers.  The worker ends a run when it is
told to, or by itself: because the work of the run comes to an end, or by a stop that was put off
when the run started.  It reports every end with the number of the run, and a report may be handled
when the controller has gone on to another run.

`Channel` is the state of the two and of everything between them, `Channel.Step` is what can happen
to it, and `Channel.Ok` is what holds after every step: what the controller believes is where the
commands on their way lead the worker, and no report and no stop that was put off is mistaken for
one of a later run.
-/
import Mathlib.Data.List.Pairwise
import Mathlib.Order.Lattice
import Mathlib.Tactic.Common

namespace Trex.Lib

open List

/-! ## 1. Commands -/

/-- What the controller can ask.  A run that is `endless` does not end by itself. -/
inductive Command (ι : Type*)
  | start (id : ι) (endless : Bool)
  | stop
  | pause
  | resume
  | update

/-- What the controller believes about the worker. -/
inductive Belief
  | off
  | on (endless : Bool)
  | paused
deriving DecidableEq

/-- What the worker does. -/
inductive Activity
  | idle
  | running
  | paused
deriving DecidableEq

variable {ι : Type*}

/-- The number of the run that a command starts. -/
def Command.id? : Command ι → Option ι
  | .start id _ => some id
  | .stop => none
  | .pause => none
  | .resume => none
  | .update => none

/-- The runs that commands start. -/
def starts (ring : List (Command ι)) : List ι := ring.filterMap Command.id?

theorem starts_append (ring ring' : List (Command ι)) :
    starts (ring ++ ring') = starts ring ++ starts ring' := filterMap_append

/-- A command that is asked, and what the controller believes before and after it. -/
inductive Asked : Belief → Command ι → Belief → Prop
  | start {id : ι} {endless : Bool} : Asked .off (.start id endless) (.on endless)
  | stop {m : Belief} : m ≠ .off → Asked m .stop .off
  | pause : Asked (.on true) .pause .paused
  | resume : Asked .paused .resume (.on true)
  | update {m : Belief} : Asked m .update m

/-- Where a list of commands leads. -/
inductive Path : Belief → List (Command ι) → Belief → Prop
  | nil {m : Belief} : Path m [] m
  | cons {m m' m'' : Belief} {cmd : Command ι} {rest : List (Command ι)} :
      Asked m cmd m' → Path m' rest m'' → Path m (cmd :: rest) m''

namespace Path

variable {m m' m'' : Belief} {cmd : Command ι} {ring : List (Command ι)}

theorem snoc (h : Path m ring m') (hask : Asked m' cmd m'') : Path m (ring ++ [cmd]) m'' := by
  induction h with
  | nil => exact .cons hask .nil
  | cons hfirst _ ih => exact .cons hfirst (ih hask)

/-- Only a start leads out of `off`. -/
theorem starts_ne_nil (h : Path .off ring m) (hm : m ≠ .off) : starts ring ≠ [] := by
  generalize hoff : Belief.off = b at h
  induction h with
  | nil => exact absurd hoff.symm hm
  | cons hfirst _ ih =>
    cases hfirst with
    | start => exact cons_ne_nil _ _
    | stop hne => exact absurd hoff.symm hne
    | pause => cases hoff
    | resume => cases hoff
    | update => exact ih hm hoff

/-- **The end of a run that ended by itself.**  When the controller still believes in a run and no
start is on its way, the commands on their way are updates, and they lead from `off` to `off` as
well. -/
theorem off_of_on (h : Path (.on false) ring m) (hm : m ≠ .off) (hno : starts ring = []) :
    Path .off ring .off := by
  generalize hon : Belief.on false = b at h
  induction h with
  | nil => exact .nil
  | cons hfirst hrest ih =>
    cases hfirst with
    | start => cases hno
    | stop => exact absurd hno (hrest.starts_ne_nil hm)
    | pause => cases hon
    | resume => cases hon
    | update => exact .cons .update (ih hm hno hon)

end Path

/-! ## 2. Channels -/

/-- A controller, a worker, and what is between them. -/
structure Channel (ι : Type*) where
  /-- The commands on their way. -/
  ring : List (Command ι)
  worker : Activity
  /-- The run that the worker started last. -/
  run : ι
  /-- The work of the run can come to an end. -/
  finite : Prop
  /-- The runs that a stop was put off for. -/
  delayed : List ι
  /-- The reports on their way. -/
  reports : List ι
  /-- The reports that the controller has handled. -/
  handled : List ι
  belief : Belief
  /-- The run that the controller started last. -/
  counter : ι
  /-- The controller knows that its run ended. -/
  signal : Bool

/-- What else has to hold when an update is asked, and when the worker ends a run by itself. -/
structure Guard (ι : Type*) where
  update : Channel ι → Prop
  halt : Channel ι → Prop

namespace Channel

/-- The runs that the worker has or will have. -/
def ids (v : Channel ι) : List ι := (if v.worker = .idle then [] else [v.run]) ++ starts v.ring

theorem ids_idle {v : Channel ι} (h : v.worker = .idle) : v.ids = starts v.ring := by
  rw [ids, if_pos h, nil_append]

theorem ids_busy {v : Channel ι} (h : v.worker ≠ .idle) : v.ids = v.run :: starts v.ring := by
  rw [ids, if_neg h, singleton_append]

/-- The run of the worker does not end by itself. -/
def Endless (v : Channel ι) : Prop := ¬ v.finite ∧ v.run ∉ v.delayed

/-- The worker is as it should be when no command is on its way. -/
def Fits (v : Channel ι) : Belief → Prop
  | .off => v.worker = .idle
  | .on true => v.worker = .running ∧ v.Endless
  | .on false => v.worker ≠ .paused
  | .paused => v.worker = .paused ∧ v.Endless

variable [LinearOrder ι]

/-- **What can happen.** -/
inductive Step (guard : Guard ι) : Channel ι → Channel ι → Prop
  /-- Work ends that the run does not depend on, or a stop that was put off is forgotten. -/
  | stay {v : Channel ι} {finite : Prop} {delayed : List ι} : (finite → v.finite) →
      delayed ⊆ v.delayed → Step guard v { v with finite := finite, delayed := delayed }
  | askStart {v : Channel ι} {id : ι} {endless : Bool} : v.belief = .off → v.counter < id →
      Step guard v { v with
        ring := v.ring ++ [.start id endless]
        belief := .on endless
        counter := id
        signal := false }
  | askStop {v : Channel ι} : v.belief ≠ .off →
      Step guard v { v with ring := v.ring ++ [.stop], belief := .off }
  | askPause {v : Channel ι} : v.belief = .on true →
      Step guard v { v with ring := v.ring ++ [.pause], belief := .paused }
  | askResume {v : Channel ι} : v.belief = .paused →
      Step guard v { v with ring := v.ring ++ [.resume], belief := .on true }
  | askUpdate {v : Channel ι} : v.belief ≠ .off → guard.update v →
      Step guard v { v with ring := v.ring ++ [.update] }
  /-- The worker starts a run, and may put off a stop for it. -/
  | takeStart {v : Channel ι} {id : ι} {endless : Bool} {rest : List (Command ι)} {finite : Prop}
      {delayed : List ι} : v.ring = .start id endless :: rest →
      (endless = true → v.worker = .idle → ¬ finite) → delayed ⊆ id :: v.delayed →
      (endless = true → delayed ⊆ v.delayed) →
      Step guard v { v with
        ring := rest
        worker := .running
        run := id
        finite := finite
        delayed := delayed }
  | takeStop {v : Channel ι} {rest : List (Command ι)} : v.ring = .stop :: rest → v.worker ≠ .idle →
      Step guard v { v with ring := rest, worker := .idle, reports := v.reports ++ [v.run] }
  /-- The worker has ended the run already. -/
  | takeStopIdle {v : Channel ι} {rest : List (Command ι)} : v.ring = .stop :: rest →
      v.worker = .idle → Step guard v { v with ring := rest }
  | takePause {v : Channel ι} {rest : List (Command ι)} : v.ring = .pause :: rest →
      v.worker = .running → Step guard v { v with ring := rest, worker := .paused }
  | takeResume {v : Channel ι} {rest : List (Command ι)} : v.ring = .resume :: rest →
      v.worker = .paused → Step guard v { v with ring := rest, worker := .running }
  | takeUpdate {v : Channel ι} {rest : List (Command ι)} : v.ring = .update :: rest →
      Step guard v { v with ring := rest }
  /-- The worker ends its run by itself. -/
  | halt {v : Channel ι} : v.worker ≠ .idle → v.finite ∨ v.run ∈ v.delayed → guard.halt v →
      Step guard v { v with worker := .idle, reports := v.reports ++ [v.run] }
  /-- The controller handles a report, and does nothing. -/
  | ignore {v : Channel ι} {id : ι} {rest : List ι} : v.reports = id :: rest →
      Step guard v { v with reports := rest, handled := v.handled ++ [id] }
  /-- The controller handles a report of its run. -/
  | signal {v : Channel ι} {rest : List ι} : v.belief ≠ .off → v.reports = v.counter :: rest →
      Step guard v { v with reports := rest, handled := v.handled ++ [v.counter], signal := true }
  /-- The controller believes that its run is over. -/
  | finish {v : Channel ι} : v.belief ≠ .off → v.signal = true →
      Step guard v { v with belief := .off }

/-! ## 3. The invariant -/

/-- **The invariant.** -/
structure Ok (v : Channel ι) : Prop where
  path : ∃ m, Path m v.ring v.belief ∧ v.Fits m
  sorted : v.ids.Pairwise (· < ·)
  bound : ∀ id ∈ v.ids, id ≤ v.counter
  reports : ∀ id ∈ v.reports, id ≤ v.counter ∧ ∀ later ∈ v.ids, id < later
  delayed : ∀ id ∈ v.delayed, id ≤ v.counter ∧ (∀ later ∈ starts v.ring, id < later)
    ∧ (v.worker ≠ .idle → id ≤ v.run)
  current : v.belief ≠ .off →
    v.counter ∈ starts v.ring ∨ (starts v.ring = [] ∧ v.run = v.counter)
  signal : v.belief ≠ .off → v.signal = true → v.ids = [] ∧ v.counter ∈ v.handled

variable {guard : Guard ι} {v v' : Channel ι}

variable {id : ι} {endless : Bool} {rest : List (Command ι)} {cmd : Command ι} {m : Belief}

/-- A start that the worker takes finds it idle. -/
theorem Ok.idle_of_start (h : v.Ok) (hring : v.ring = .start id endless :: rest) :
    v.worker = .idle ∧ Path (.on endless) rest v.belief := by
  obtain ⟨m, hpath, hfits⟩ := h.path
  rw [hring] at hpath
  cases hpath with
  | cons hask hrest =>
    cases hask
    exact ⟨hfits, hrest⟩

/-- A pause that the worker takes finds it running, and the run is endless. -/
theorem Ok.running_of_pause (h : v.Ok) (hring : v.ring = .pause :: rest) :
    v.worker = .running ∧ v.Endless ∧ Path .paused rest v.belief := by
  obtain ⟨m, hpath, hfits⟩ := h.path
  rw [hring] at hpath
  cases hpath with
  | cons hask hrest =>
    cases hask
    exact ⟨hfits.1, hfits.2, hrest⟩

/-- A resume that the worker takes finds it paused. -/
theorem Ok.paused_of_resume (h : v.Ok) (hring : v.ring = .resume :: rest) :
    v.worker = .paused ∧ v.Endless ∧ Path (.on true) rest v.belief := by
  obtain ⟨m, hpath, hfits⟩ := h.path
  rw [hring] at hpath
  cases hpath with
  | cons hask hrest =>
    cases hask
    exact ⟨hfits.1, hfits.2, hrest⟩

/-- A run that ends by itself is not one that the controller paused or may pause. -/
theorem Ok.path_of_ends (h : v.Ok) (hbusy : v.worker ≠ .idle)
    (hends : v.finite ∨ v.run ∈ v.delayed) :
    Path (.on false) v.ring v.belief := by
  have hendless : ¬ v.Endless := by
    rintro ⟨hfinite, hdelayed⟩
    exact hends.elim hfinite hdelayed
  obtain ⟨m, hpath, hfits⟩ := h.path
  cases m with
  | off => exact absurd hfits hbusy
  | on endless =>
    cases endless with
    | true => exact absurd hfits.2 hendless
    | false => exact hpath
  | paused => exact absurd hfits.2 hendless

/-- **The controller's run is over when its end was reported.** -/
theorem Ok.over (h : v.Ok) (hon : v.belief ≠ .off) (hids : v.ids = []) :
    v.worker = .idle ∧ starts v.ring = [] ∧ v.run = v.counter := by
  have hidle : v.worker = .idle := by
    by_contra hbusy
    rw [ids_busy hbusy] at hids
    cases hids
  rw [ids_idle hidle] at hids
  rcases h.current hon with hmem | ⟨-, hrun⟩
  · rw [hids] at hmem
    cases hmem
  · exact ⟨hidle, hids, hrun⟩

/-- A report of the controller's run comes after everything that the worker has or will have. -/
theorem Ok.ids_nil (h : v.Ok) (hmem : v.counter ∈ v.reports) : v.ids = [] := by
  refine eq_nil_iff_forall_not_mem.mpr fun id hid => ?_
  exact absurd (h.bound id hid) (not_le.mpr ((h.reports _ hmem).2 id hid))

/-! ## 4. Every step keeps the invariant -/

theorem Ok.stay (h : v.Ok) {finite : Prop} {delayed : List ι} (hfinite : finite → v.finite)
    (hdelayed : delayed ⊆ v.delayed) : Ok { v with finite := finite, delayed := delayed } := by
  have hendless : v.Endless → Endless { v with finite := finite, delayed := delayed } :=
    fun he => ⟨fun hf => he.1 (hfinite hf), fun hm => he.2 (hdelayed hm)⟩
  obtain ⟨m, hpath, hfits⟩ := h.path
  refine ⟨⟨m, hpath, ?_⟩, h.sorted, h.bound, h.reports, fun id hid => h.delayed id (hdelayed hid),
    h.current, h.signal⟩
  cases m with
  | off => exact hfits
  | on endless =>
    cases endless with
    | true => exact ⟨hfits.1, hendless hfits.2⟩
    | false => exact hfits
  | paused => exact ⟨hfits.1, hendless hfits.2⟩

/-- A new run has a number of its own. -/
theorem Ok.askStart (h : v.Ok) (hoff : v.belief = .off) (hnew : v.counter < id) :
    Ok { v with
      ring := v.ring ++ [.start id endless]
      belief := .on endless
      counter := id
      signal := false } := by
  have hstarts : starts (v.ring ++ [.start id endless]) = starts v.ring ++ [id] := starts_append _ _
  have hids : ids { v with
      ring := v.ring ++ [.start id endless]
      belief := .on endless
      counter := id
      signal := false } = v.ids ++ [id] := by
    simp [ids, hstarts]
  obtain ⟨m, hpath, hfits⟩ := h.path
  rw [hoff] at hpath
  refine ⟨⟨m, hpath.snoc .start, hfits⟩, ?_, ?_, ?_, ?_, ?_, ?_⟩
  · rw [hids]
    refine pairwise_append.mpr ⟨h.sorted, pairwise_singleton _ _, ?_⟩
    intro a ha b hb
    rw [mem_singleton.mp hb]
    exact lt_of_le_of_lt (h.bound a ha) hnew
  · rw [hids]
    intro a ha
    rcases mem_append.mp ha with hold | hlast
    · exact le_of_lt (lt_of_le_of_lt (h.bound a hold) hnew)
    · exact le_of_eq (mem_singleton.mp hlast)
  · rw [hids]
    intro a ha
    obtain ⟨hle, hlt⟩ := h.reports a ha
    refine ⟨le_of_lt (lt_of_le_of_lt hle hnew), fun b hb => ?_⟩
    rcases mem_append.mp hb with hold | hlast
    · exact hlt b hold
    · rw [mem_singleton.mp hlast]
      exact lt_of_le_of_lt hle hnew
  · intro a ha
    obtain ⟨hle, hlt, hrun⟩ := h.delayed a ha
    refine ⟨le_of_lt (lt_of_le_of_lt hle hnew), fun b hb => ?_, hrun⟩
    rw [hstarts] at hb
    rcases mem_append.mp hb with hold | hlast
    · exact hlt b hold
    · rw [mem_singleton.mp hlast]
      exact lt_of_le_of_lt hle hnew
  · intro _
    left
    rw [hstarts]
    exact mem_append_right _ (mem_singleton.mpr rfl)
  · intro _ hsignal
    cases hsignal

/-- A command that starts no run. -/
theorem Ok.ask (h : v.Ok) (hask : Asked v.belief cmd m) (hno : cmd.id? = none)
    (hkeep : m ≠ .off → v.belief ≠ .off) :
    Ok { v with ring := v.ring ++ [cmd], belief := m } := by
  have hstarts : starts (v.ring ++ [cmd]) = starts v.ring := by
    rw [starts_append, starts, starts, filterMap_cons_none hno, filterMap_nil,
      append_nil]
  have hids : ids { v with ring := v.ring ++ [cmd], belief := m } = v.ids := by
    simp only [ids, hstarts]
  obtain ⟨m0, hpath, hfits⟩ := h.path
  refine ⟨⟨m0, hpath.snoc hask, hfits⟩, ?_, ?_, ?_, ?_, ?_, ?_⟩
  · rw [hids]
    exact h.sorted
  · rw [hids]
    exact h.bound
  · rw [hids]
    exact h.reports
  · rw [hstarts]
    exact h.delayed
  · rw [hstarts]
    exact fun hm => h.current (hkeep hm)
  · rw [hids]
    exact fun hm => h.signal (hkeep hm)

/-- **The worker starts a run.**  What was put off before is of earlier runs. -/
theorem Ok.takeStart (h : v.Ok) {finite : Prop} {delayed : List ι}
    (hring : v.ring = .start id endless :: rest)
    (hfinite : endless = true → v.worker = .idle → ¬ finite)
    (hdelayed : delayed ⊆ id :: v.delayed) (hnone : endless = true → delayed ⊆ v.delayed) :
    Ok { v with
      ring := rest
      worker := .running
      run := id
      finite := finite
      delayed := delayed } := by
  obtain ⟨hidle, hpath⟩ := h.idle_of_start hring
  have hstarts : starts v.ring = id :: starts rest := by
    rw [hring]
    rfl
  have hids : v.ids = id :: starts rest := by rw [ids_idle hidle, hstarts]
  have hids' : ids { v with
      ring := rest
      worker := .running
      run := id
      finite := finite
      delayed := delayed } = v.ids := by rw [hids, ids_busy (by simp)]
  have hold : ∀ d ∈ v.delayed, d < id := by
    intro d hd
    refine (h.delayed d hd).2.1 id ?_
    rw [hstarts]
    exact mem_cons_self
  have hsorted := h.sorted
  rw [hids] at hsorted
  have hlater : ∀ later ∈ starts rest, id < later := (pairwise_cons.mp hsorted).1
  have hbound : id ≤ v.counter := h.bound id (hids ▸ mem_cons_self)
  refine ⟨⟨.on endless, hpath, ?_⟩, ?_, ?_, ?_, ?_, ?_, ?_⟩
  · cases endless with
    | true =>
      refine ⟨rfl, hfinite rfl hidle, fun hmem => ?_⟩
      exact lt_irrefl id (hold id (hnone rfl hmem))
    | false => exact fun hp => nomatch hp
  · rw [hids']
    exact h.sorted
  · rw [hids']
    exact h.bound
  · rw [hids']
    exact h.reports
  · intro d hd
    rcases mem_cons.mp (hdelayed hd) with rfl | hmem
    · exact ⟨hbound, hlater, fun _ => le_refl _⟩
    · have hlt := hold d hmem
      exact ⟨le_of_lt (lt_of_lt_of_le hlt hbound), fun later hl => lt_trans hlt (hlater later hl),
        fun _ => le_of_lt hlt⟩
  · intro hon
    rcases h.current hon with hmem | ⟨hnil, -⟩
    · rw [hstarts] at hmem
      rcases mem_cons.mp hmem with heq | hmem'
      · -- the run is the last one, so no other start follows
        right
        refine ⟨eq_nil_iff_forall_not_mem.mpr fun later hl => ?_, heq.symm⟩
        have hle := h.bound later (hids ▸ mem_cons_of_mem _ hl)
        rw [heq] at hle
        exact absurd (hlater later hl) (not_lt.mpr hle)
      · exact Or.inl hmem'
    · rw [hstarts] at hnil
      cases hnil
  · intro hon hsignal
    have hnil := (h.signal hon hsignal).1
    rw [hids] at hnil
    cases hnil

/-- The worker takes a command that starts no run, and has the same run after it. -/
theorem Ok.take (h : v.Ok) {worker : Activity} (hring : v.ring = cmd :: rest)
    (hno : cmd.id? = none) (hbusy : worker = .idle ↔ v.worker = .idle)
    (hpath : Path m rest v.belief) (hfits : Fits { v with ring := rest, worker := worker } m) :
    Ok { v with ring := rest, worker := worker } := by
  have hstarts : starts v.ring = starts rest := by
    rw [hring, starts, filterMap_cons_none hno]
    rfl
  have hids : ids { v with ring := rest, worker := worker } = v.ids := by
    simp only [ids, hstarts, hbusy]
  refine ⟨⟨m, hpath, hfits⟩, ?_, ?_, ?_, ?_, ?_, ?_⟩
  · rw [hids]
    exact h.sorted
  · rw [hids]
    exact h.bound
  · rw [hids]
    exact h.reports
  · rw [← hstarts]
    exact fun d hd => ⟨(h.delayed d hd).1, (h.delayed d hd).2.1,
      fun hw => (h.delayed d hd).2.2 (fun hidle => hw (hbusy.mpr hidle))⟩
  · rw [← hstarts]
    exact h.current
  · rw [hids]
    exact h.signal

/-- **The worker ends its run and reports it.**  `rest` is what is left of the commands. -/
theorem Ok.stopped (h : v.Ok) (hbusy : v.worker ≠ .idle) (hstarts : starts rest = starts v.ring)
    (hpath : Path m rest v.belief) (hm : m = .off ∨ m = .on false) :
    Ok { v with ring := rest, worker := .idle, reports := v.reports ++ [v.run] } := by
  have hids : ids { v with ring := rest, worker := .idle, reports := v.reports ++ [v.run] }
      = starts v.ring := by rw [ids_idle rfl, hstarts]
  have hall : v.ids = v.run :: starts v.ring := ids_busy hbusy
  have hsorted := h.sorted
  rw [hall] at hsorted
  obtain ⟨hlater, hrest⟩ := pairwise_cons.mp hsorted
  have hsub : ∀ id ∈ starts v.ring, id ∈ v.ids := by
    intro id hid
    rw [hall]
    exact mem_cons_of_mem _ hid
  refine ⟨⟨m, hpath, ?_⟩, ?_, ?_, ?_, ?_, ?_, ?_⟩
  · rcases hm with rfl | rfl
    · rfl
    · exact fun hp => nomatch hp
  · rw [hids]
    exact hrest
  · rw [hids]
    exact fun id hid => h.bound id (hsub id hid)
  · rw [hids]
    intro id hid
    rcases mem_append.mp hid with hold | hnew
    · exact ⟨(h.reports id hold).1, fun later hl => (h.reports id hold).2 later (hsub later hl)⟩
    · rw [mem_singleton.mp hnew]
      exact ⟨h.bound v.run (hall ▸ mem_cons_self), hlater⟩
  · rw [hstarts]
    exact fun id hid => ⟨(h.delayed id hid).1, (h.delayed id hid).2.1, fun hw => absurd rfl hw⟩
  · rw [hstarts]
    exact h.current
  · intro hon hsignal
    have hnil := (h.signal hon hsignal).1
    rw [hall] at hnil
    cases hnil

/-- The controller handles the first report.  If it learns that its run ended, the report is of this
run. -/
theorem Ok.handle (h : v.Ok) {rest : List ι} (hreports : v.reports = id :: rest) {signal : Bool}
    (hsignal : signal = true → v.signal = true ∨ id = v.counter) :
    Ok { v with reports := rest, handled := v.handled ++ [id], signal := signal } := by
  have hmem : ∀ x ∈ rest, x ∈ v.reports := by
    intro x hx
    rw [hreports]
    exact mem_cons_of_mem _ hx
  refine ⟨h.path, h.sorted, h.bound, fun x hx => h.reports x (hmem x hx), h.delayed, h.current, ?_⟩
  intro hon hs
  rcases hsignal hs with hold | heq
  · obtain ⟨hnil, hin⟩ := h.signal hon hold
    exact ⟨hnil, mem_append_left _ hin⟩
  · subst heq
    refine ⟨?_, mem_append_right _ (mem_singleton.mpr rfl)⟩
    refine h.ids_nil ?_
    rw [hreports]
    exact mem_cons_self

/-- The controller ends its belief in a run that is over. -/
theorem Ok.finish (h : v.Ok) (hon : v.belief ≠ .off) (hsignal : v.signal = true) :
    Ok { v with belief := .off } := by
  obtain ⟨hidle, hno, -⟩ := h.over hon (h.signal hon hsignal).1
  obtain ⟨m, hpath, hfits⟩ := h.path
  have hoff : Path .off v.ring .off := by
    cases m with
    | off => exact absurd hno (hpath.starts_ne_nil hon)
    | on endless =>
      cases endless with
      | true => exact absurd hidle (by rw [hfits.1]; decide)
      | false => exact hpath.off_of_on hon hno
    | paused => exact absurd hidle (by rw [hfits.1]; decide)
  exact ⟨⟨.off, hoff, hidle⟩, h.sorted, h.bound, h.reports, h.delayed, fun hne => absurd rfl hne,
    fun hne => absurd rfl hne⟩

/-- **Every step keeps the invariant.** -/
theorem Step.ok (hstep : Step guard v v') (h : v.Ok) : v'.Ok := by
  cases hstep with
  | stay hfinite hdelayed => exact h.stay hfinite hdelayed
  | askStart hoff hnew => exact h.askStart hoff hnew
  | askStop hon => exact h.ask (.stop hon) rfl fun hne => absurd rfl hne
  | askPause hon =>
    refine h.ask (hon ▸ .pause) rfl fun _ => ?_
    rw [hon]
    decide
  | askResume hon =>
    refine h.ask (hon ▸ .resume) rfl fun _ => ?_
    rw [hon]
    decide
  | askUpdate hon => exact h.ask .update rfl id
  | takeStart hring hfinite hdelayed hnone => exact h.takeStart hring hfinite hdelayed hnone
  | takeStop hring hbusy =>
    obtain ⟨m, hpath, -⟩ := h.path
    rw [hring] at hpath
    cases hpath with
    | cons hask hrest =>
      cases hask
      exact h.stopped hbusy (by rw [hring]; rfl) hrest (Or.inl rfl)
  | takeStopIdle hring hidle =>
    obtain ⟨m, hpath, -⟩ := h.path
    rw [hring] at hpath
    cases hpath with
    | cons hask hrest =>
      cases hask
      exact h.take hring rfl Iff.rfl hrest hidle
  | takePause hring hrun =>
    obtain ⟨-, hendless, hrest⟩ := h.running_of_pause hring
    exact h.take hring rfl (by simp [hrun]) hrest ⟨rfl, hendless⟩
  | takeResume hring hpaused =>
    obtain ⟨-, hendless, hrest⟩ := h.paused_of_resume hring
    exact h.take hring rfl (by simp [hpaused]) hrest ⟨rfl, hendless⟩
  | takeUpdate hring =>
    obtain ⟨m, hpath, hfits⟩ := h.path
    rw [hring] at hpath
    cases hpath with
    | cons hask hrest =>
      cases hask
      refine h.take hring rfl Iff.rfl hrest ?_
      cases m with
      | off => exact hfits
      | on endless => cases endless <;> exact hfits
      | paused => exact hfits
  | halt hbusy hends => exact h.stopped hbusy rfl (h.path_of_ends hbusy hends) (Or.inr rfl)
  | ignore hreports => exact h.handle hreports fun hs => Or.inl hs
  | signal hon hreports => exact h.handle hreports fun _ => Or.inr rfl
  | finish hon hsignal => exact h.finish hon hsignal

/-! ## 5. Updates

An update that the worker takes while it is idle is one that came too late.  The invariant does not
exclude it: the controller believes in its run until every report has come.  It is excluded when the
controller asks for updates only while the worker has a run or will have one, and when the worker
does not end a run by itself while an update is on its way. -/

/-- Every update on its way finds the worker busy, if the worker is `busy` now and does not end a
run by itself. -/
def Served : Bool → List (Command ι) → Prop
  | _, [] => True
  | _, .start _ _ :: rest => Served true rest
  | _, .stop :: rest => Served false rest
  | busy, .pause :: rest => Served busy rest
  | busy, .resume :: rest => Served busy rest
  | busy, .update :: rest => busy = true ∧ Served busy rest

/-- No update comes before the next start. -/
def Clear : List (Command ι) → Prop
  | [] => True
  | .start _ _ :: _ => True
  | .stop :: rest => Clear rest
  | .pause :: rest => Clear rest
  | .resume :: rest => Clear rest
  | .update :: _ => False

/-- The controller asks for an update only while the worker has a run or will have one, and the
worker does not end a run by itself while an update for it is on its way. -/
def updating : Guard ι := ⟨fun v => v.worker ≠ .idle ∨ starts v.ring ≠ [], fun v => Clear v.ring⟩

omit [LinearOrder ι] in
theorem served_of_clear (ring : List (Command ι)) : ∀ {busy : Bool}, Served busy ring → Clear ring →
    Served false ring := by
  induction ring with
  | nil => exact fun _ _ => trivial
  | cons cmd rest ih =>
    intro busy hserved hclear
    cases cmd with
    | start id endless => exact hserved
    | stop => exact hserved
    | pause => exact @ih busy hserved hclear
    | resume => exact @ih busy hserved hclear
    | update => exact hclear.elim

omit [LinearOrder ι] in
/-- A command that is not an update follows. -/
theorem served_snoc (hcmd : ∀ busy, Served busy [cmd]) (ring : List (Command ι)) :
    ∀ {busy : Bool}, Served busy ring → Served busy (ring ++ [cmd]) := by
  induction ring with
  | nil => exact fun _ => hcmd _
  | cons first rest ih =>
    intro busy hserved
    cases first with
    | start id endless => exact @ih true hserved
    | stop => exact @ih false hserved
    | pause => exact @ih busy hserved
    | resume => exact @ih busy hserved
    | update => exact ⟨hserved.1, ih hserved.2⟩

omit [LinearOrder ι] in
/-- **An update follows**, for a run that the controller believes in and the worker has or will
have. -/
theorem served_snoc_update {m' : Belief} {ring : List (Command ι)} (hpath : Path m ring m')
    (hon : m' ≠ .off) : ∀ {busy : Bool}, busy = true ∨ starts ring ≠ [] → Served busy ring →
      Served busy (ring ++ [.update]) := by
  induction hpath with
  | nil =>
    intro busy hrun _
    rcases hrun with hbusy | hnil
    · exact ⟨hbusy, trivial⟩
    · exact absurd rfl hnil
  | cons hask hrest ih =>
    intro busy hrun hserved
    cases hask with
    | start => exact @ih hon true (Or.inl rfl) hserved
    | stop => exact @ih hon false (Or.inr (hrest.starts_ne_nil hon)) hserved
    | pause => exact @ih hon busy hrun hserved
    | resume => exact @ih hon busy hrun hserved
    | update => exact ⟨hserved.1, ih hon hrun hserved.2⟩

/-- **No update comes too late.** -/
def UpdatesServed (v : Channel ι) : Prop := Served (decide (v.worker ≠ .idle)) v.ring

theorem Step.updatesServed (hstep : Step updating v v') (h : v.Ok) (hs : v.UpdatesServed) :
    v'.UpdatesServed := by
  have htake : ∀ {cmd : Command ι} {rest : List (Command ι)}, v.ring = cmd :: rest →
      Served (decide (v.worker ≠ .idle)) (cmd :: rest) := by
    intro cmd rest hring
    rw [← hring]
    exact hs
  cases hstep with
  | stay => exact hs
  | askStart =>
    refine served_snoc ?_ _ hs
    exact fun _ => trivial
  | askStop =>
    refine served_snoc ?_ _ hs
    exact fun _ => trivial
  | askPause =>
    refine served_snoc ?_ _ hs
    exact fun _ => trivial
  | askResume =>
    refine served_snoc ?_ _ hs
    exact fun _ => trivial
  | askUpdate hon hrun =>
    obtain ⟨m, hpath, -⟩ := h.path
    refine served_snoc_update hpath hon ?_ hs
    exact hrun.imp_left fun hbusy => decide_eq_true hbusy
  | takeStart hring => exact htake hring
  | takeStop hring => exact htake hring
  | takeStopIdle hring hidle =>
    unfold UpdatesServed
    rw [decide_eq_false (by simp [hidle])]
    exact htake hring
  | takePause hring hrun =>
    have hserved := htake hring
    rw [hrun] at hserved
    exact hserved
  | takeResume hring hpaused =>
    have hserved := htake hring
    rw [hpaused] at hserved
    exact hserved
  | takeUpdate hring => exact (htake hring).2
  | halt _ _ hclear => exact served_of_clear _ hs hclear
  | ignore => exact hs
  | signal => exact hs
  | finish => exact hs

omit [LinearOrder ι] in
/-- An update that the worker takes finds it busy. -/
theorem UpdatesServed.busy (h : v.UpdatesServed) (hring : v.ring = .update :: rest) :
    v.worker ≠ .idle := by
  unfold UpdatesServed at h
  rw [hring] at h
  exact of_decide_eq_true h.1

/-! ## 7. A run that is over

Once the worker has ended the run that the controller counts, with no start on its way, it stays so
until the controller asks for the next run. -/

/-- The worker has ended the controller's run, and will not start another one. -/
def Ended (v : Channel ι) : Prop := v.worker = .idle ∧ starts v.ring = [] ∧ v.run = v.counter

theorem Step.counter_le (hstep : Step guard v v') : v.counter ≤ v'.counter := by
  cases hstep with
  | askStart _ hnew => exact hnew.le
  | _ => exact le_rfl

theorem Step.ended (hstep : Step guard v v') (h : v.Ended) (hcounter : v'.counter = v.counter) :
    v'.Ended := by
  obtain ⟨hidle, hno, hrun⟩ := h
  have hsnoc : ∀ cmd : Command ι, cmd.id? = none → starts (v.ring ++ [cmd]) = [] := by
    intro cmd hcmd
    rw [starts_append, hno, nil_append]
    exact filterMap_cons_none hcmd
  have htail : ∀ {cmd : Command ι} {rest : List (Command ι)}, v.ring = cmd :: rest →
      starts rest = [] := by
    intro cmd rest hring
    rw [hring] at hno
    exact (append_eq_nil_iff.mp ((starts_append [cmd] rest).symm.trans hno)).2
  cases hstep with
  | stay => exact ⟨hidle, hno, hrun⟩
  | askStart _ hnew => exact absurd hcounter hnew.ne'
  | askStop => exact ⟨hidle, hsnoc _ rfl, hrun⟩
  | askPause => exact ⟨hidle, hsnoc _ rfl, hrun⟩
  | askResume => exact ⟨hidle, hsnoc _ rfl, hrun⟩
  | askUpdate => exact ⟨hidle, hsnoc _ rfl, hrun⟩
  | takeStart hring =>
    rw [hring] at hno
    cases hno
  | takeStop _ hbusy => exact absurd hidle hbusy
  | takeStopIdle hring => exact ⟨hidle, htail hring, hrun⟩
  | takePause _ hrunning =>
    rw [hidle] at hrunning
    cases hrunning
  | takeResume _ hpaused =>
    rw [hidle] at hpaused
    cases hpaused
  | takeUpdate hring => exact ⟨hidle, htail hring, hrun⟩
  | halt hbusy => exact absurd hidle hbusy
  | ignore => exact ⟨hidle, hno, hrun⟩
  | signal => exact ⟨hidle, hno, hrun⟩
  | finish => exact ⟨hidle, hno, hrun⟩

/-- **A run that is over stays over**, until the next one is asked for. -/
theorem Ended.steps (h : v.Ended) (hsteps : Relation.ReflTransGen (Step guard) v v')
    (hcounter : v'.counter = v.counter) : v'.Ended := by
  have hmono : ∀ {u : Channel ι}, Relation.ReflTransGen (Step guard) v u →
      v.counter ≤ u.counter := by
    intro u hu
    induction hu with
    | refl => exact le_rfl
    | tail _ hstep ih => exact ih.trans hstep.counter_le
  induction hsteps with
  | refl => exact h
  | tail hbefore hstep ih =>
    have hlast := hstep.counter_le.trans_eq hcounter
    exact hstep.ended (ih (le_antisymm hlast (hmono hbefore)))
      (hcounter.trans (le_antisymm (hmono hbefore) hlast))

end Channel

end Trex.Lib
