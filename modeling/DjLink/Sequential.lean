import Mathlib.Data.List.Induction
import DjLink.Client
import DjLink.Threads

/-!
The methods in one piece are schedules of the system. A receiver that is left
alone takes a callback from its arrival to its end, and a main thread that is
left alone takes `update()` from its call to its return, with every handler
returning at once; what they leave behind is what `callback` and `update`
compute. The accounts of the client and of the caches, which speak of whole
callbacks and whole updates, are thereby accounts of runs of the system.
-/

namespace DjLink

open Transition

variable {T : Type}

def OnlyReceiver (t : T) (_ : System T) (l : Label T) : Prop := l = .receiver t

/-- The steps of the main thread inside one `update()` whose handlers return
at once. -/
def OnlyUpdate (_ : System T) (l : Label T) : Prop :=
  l = .call .update ∨ l = .main ∨ l = .handlerReturns

/-- The steps of the main thread inside one drain whose handlers return at
once. -/
def OnlyDrain (_ : System T) (l : Label T) : Prop := l = .main ∨ l = .handlerReturns

theorem update_owner_of_free {owner : Mutex → Option (Thread T)} {m : Mutex} (h : owner m = none)
    (x : Option (Thread T)) :
    Function.update (Function.update owner m x) m none = owner := by
  rw [Function.update_idem, ← h, Function.update_eq_self]

variable [DecidableEq T] (threading : Threading T)

/-! ### A callback -/

theorem section_run (t : T) (sec : Section) (rest : List Section) (s : System T)
    (hreceiver : s.receivers t = { todo := sec :: rest }) (hfree : s.owner sec.mutex = none) :
    Runs (Step threading) (OnlyReceiver t) s
      { s with
        addon := s.addon.runSection sec
        receivers := Function.update s.receivers t { todo := rest }
        log := s.log ++ [.ran sec] } := by
  let inside : System T :=
    { s with
      addon := s.addon.runSection sec
      receivers := Function.update s.receivers t { holding := some sec.mutex, todo := rest }
      owner := Function.update s.owner sec.mutex (some (.receiver t))
      log := s.log ++ [.ran sec] }
  have hacquire : Step threading s (.receiver t) inside := .acquire s t sec rest hreceiver hfree
  have hrelease : Step threading inside (.receiver t) _ :=
    .release inside t sec.mutex rest (Function.update_self ..)
  have howner : Function.update inside.owner sec.mutex none = s.owner :=
    update_owner_of_free hfree _
  rw [howner, Function.update_idem] at hrelease
  have hrun : Runs (Step threading) (OnlyReceiver t) s inside := Runs.single rfl hacquire
  exact hrun.snoc rfl hrelease

theorem sections_run (t : T) (todo : List Section) (s : System T)
    (hreceiver : s.receivers t = { todo := todo })
    (hfree : ∀ sec ∈ todo, s.owner sec.mutex = none) :
    Runs (Step threading) (OnlyReceiver t) s
      { s with
        addon := todo.foldl OfxBeatLink.runSection s.addon
        receivers := Function.update s.receivers t {}
        log := s.log ++ todo.map .ran } := by
  induction todo generalizing s with
  | nil =>
      have hsame : Function.update s.receivers t {} = s.receivers := by
        rw [← hreceiver, Function.update_eq_self]
      rw [hsame]
      simpa using Relation.ReflTransGen.refl
  | cons sec rest ih =>
      have hfirst := section_run threading t sec rest s hreceiver
        (hfree sec List.mem_cons_self)
      have hrest := ih
        { s with
          addon := s.addon.runSection sec
          receivers := Function.update s.receivers t { todo := rest }
          log := s.log ++ [.ran sec] }
        (Function.update_self ..) fun sec hsec => hfree sec (List.mem_cons_of_mem _ hsec)
      simpa [Function.update_idem] using hfirst.trans hrest

/-- A callback of an idle receiver that finds its mutexes free does what
`callback` computes. -/
theorem callback_run (t : T) (cb : Callback) (s : System T) (hruns : threading.runs t cb)
    (hidle : s.receivers t = {}) (hfree : ∀ sec ∈ cb.sections, s.owner sec.mutex = none) :
    Runs (Step threading) (OnlyReceiver t) s
      { s with
        addon := s.addon.callback cb
        log := s.log ++ .arrived cb :: cb.sections.map .ran } := by
  have henter : Runs (Step threading) (OnlyReceiver t) s _ :=
    Runs.single rfl (.enter s t cb hruns (by simp [hidle, Receiver.Idle]))
  have hsections := sections_run threading t cb.sections
    { s with
      receivers := Function.update s.receivers t { todo := cb.sections }
      log := s.log ++ [.arrived cb] }
    (Function.update_self ..) hfree
  have hsame : Function.update s.receivers t {} = s.receivers := by
    rw [← hidle, Function.update_eq_self]
  have hrun := henter.trans hsections
  simpa [Function.update_idem, hsame, cb.foldl_sections] using hrun

/-! ### An update -/

def OfxBeatLink.clear (self : OfxBeatLink) : Queue → OfxBeatLink
  | .beat => { self with beatQueue := [] }
  | .deviceFound => { self with deviceFoundQueue := [] }
  | .deviceLost => { self with deviceLostQueue := [] }
  | .deviceUpdate => { self with deviceUpdateQueue := [] }
  | .masterChanged => { self with masterChangedQueue := [] }

theorem OfxBeatLink.clear_of_pop {self popped : OfxBeatLink} {q : Queue} {event : Event}
    (h : self.pop q = some (event, popped)) : popped.clear q = self.clear q := by
  cases q <;> simp only [pop] at h <;> split at h <;> cases h <;> rfl

theorem OfxBeatLink.clear_of_empty {self : OfxBeatLink} {q : Queue} (h : self.queued q = []) :
    self.clear q = self := by
  obtain ⟨running, virtualCdjRunning, name, beatQueue, foundQueue, lostQueue, latestBeats, lastBeat,
    updateQueue, masterQueue, latestStatuses, update, master⟩ := self
  cases q <;> simp_all [clear, queued]

theorem OfxBeatLink.queued_clear (self : OfxBeatLink) (q r : Queue) :
    (self.clear q).queued r = if r = q then [] else self.queued r := by
  cases q <;> cases r <;> rfl

theorem OfxBeatLink.update_eq_clear (self : OfxBeatLink) :
    self.update.1 = ((((self.clear .beat).clear .deviceFound).clear .deviceLost).clear
      .deviceUpdate).clear .masterChanged := by
  simp [update, drain_eq, clear]

theorem loop_run (q : Queue) (events : List Event) (s : System T)
    (hmain : s.main.activity = .loop q) (hevents : s.addon.queued q = events) :
    Runs (Step threading) OnlyDrain s
      { s with
        addon := s.addon.clear q
        main := { s.main with activity := .afterLoop q }
        owner := Function.update s.owner q.mutex none
        log := s.log ++ events.map .handed } := by
  induction events generalizing s with
  | nil =>
      have hunlock : Step threading s .main _ :=
        .unlock s q hmain ((s.addon.pop_eq_none_iff q).mpr hevents)
      rw [OfxBeatLink.clear_of_empty hevents]
      simpa using Runs.single (.inl rfl) hunlock
  | cons event events ih =>
      obtain ⟨event', popped, hpop⟩ : ∃ event' popped, s.addon.pop q = some (event', popped) := by
        cases hpop : s.addon.pop q with
        | none =>
            rw [(s.addon.pop_eq_none_iff q).mp hpop] at hevents
            cases hevents
        | some x => exact ⟨x.1, x.2, rfl⟩
      obtain ⟨hqueue, hqueued⟩ := OfxBeatLink.queued_pop hpop
      have hsplit := hqueued q
      rw [hevents, if_pos hqueue, List.singleton_append, List.cons.injEq] at hsplit
      obtain ⟨rfl, hrest⟩ := hsplit
      let handling : System T :=
        { s with
          addon := popped
          main := { activity := .user, handlers := q :: s.main.handlers }
          log := s.log ++ [.handed event] }
      let next : System T := { handling with main := { s.main with activity := .loop q } }
      have hnotify : Step threading s .main handling := .notify s q event popped hmain hpop
      have hreturn : Step threading handling .handlerReturns next :=
        .handlerReturns handling q s.main.handlers rfl rfl
      have hstart : Runs (Step threading) OnlyDrain s next :=
        Runs.snoc (Runs.single (.inl rfl) hnotify) (.inr rfl) hreturn
      have hrun := hstart.trans (ih next rfl hrest.symm)
      simpa [next, handling, OfxBeatLink.clear_of_pop hpop] using hrun

/-- One drain, from its lock to the next. -/
theorem drain_run (q : Queue) (s : System T) (hmain : s.main.activity = .lock q)
    (hfree : s.owner q.mutex = none) :
    Runs (Step threading) OnlyDrain s
      { s with
        addon := s.addon.clear q
        main := { s.main with activity := .afterLoop q }
        log := s.log ++ (s.addon.queued q).map .handed } := by
  let locked : System T :=
    { s with
      main := { s.main with activity := .loop q }
      owner := Function.update s.owner q.mutex (some .main) }
  have hlock : Runs (Step threading) OnlyDrain s locked :=
    Runs.single (.inl rfl) (.lock s q hmain hfree)
  have hrun := hlock.trans (loop_run threading q _ locked rfl rfl)
  simpa [locked, update_owner_of_free hfree] using hrun

/-- An `update()` that finds the mutexes of the queues free, called from
anywhere in the program, does what `update` computes. -/
theorem update_run (s : System T) (huser : s.main.activity = .user)
    (hfree : ∀ q : Queue, s.owner q.mutex = none) :
    Runs (Step threading) OnlyUpdate s
      { s with
        addon := s.addon.update.1
        log := s.log ++ s.addon.update.2.map .handed } := by
  have hinside (u v : System T) (h : Runs (Step threading) OnlyDrain u v) :
      Runs (Step threading) OnlyUpdate u v := h.mono fun _ _ hl => .inr hl
  have hcall : Runs (Step threading) OnlyUpdate s _ :=
    Runs.single (.inl rfl) (.call s .update huser)
  have hbeat := hcall.trans (hinside _ _ (drain_run threading .beat _ rfl (hfree .beat)))
  have hfound := hbeat.trans (hinside _ _ (drain_run threading .deviceFound _ rfl (hfree _)))
  have hlost := hfound.trans (hinside _ _ (drain_run threading .deviceLost _ rfl (hfree _)))
  have hupdate := hlost.trans (hinside _ _ (drain_run threading .deviceUpdate _ rfl (hfree _)))
  have hmaster :=
    hupdate.trans (hinside _ _ (drain_run threading .masterChanged _ rfl (hfree _)))
  have hmain : ({ s.main with activity := .user } : Main) = s.main := by rw [← huser]
  simp only [OfxBeatLink.queued_clear, reduceCtorEq, if_false] at hmaster
  rw [OfxBeatLink.update_eq_clear, OfxBeatLink.update_handed]
  simpa [Activity.afterLoop, Queue.next, hmain] using hmaster

/-! ### A session -/

structure System.AtRest (s : System T) : Prop where
  receivers : ∀ t, s.receivers t = {}
  main : s.main = {}
  owner : ∀ m, s.owner m = none

/-- A whole callback or a whole update, as one move of the system. -/
def System.perform (s : System T) : Input → System T
  | .callback cb =>
      { s with
        addon := s.addon.callback cb
        log := s.log ++ .arrived cb :: cb.sections.map .ran }
  | .update =>
      { s with
        addon := s.addon.update.1
        log := s.log ++ s.addon.update.2.map .handed }

theorem perform_run {s : System T} (hrest : s.AtRest) (runner : Callback → T)
    (hruns : ∀ cb, threading.runs (runner cb) cb) (input : Input) :
    Reaches (Step threading) s (s.perform input) ∧ (s.perform input).AtRest := by
  cases input with
  | callback cb =>
      have hcallback := callback_run threading (runner cb) cb s (hruns cb) (hrest.receivers _)
        fun sec _ => hrest.owner _
      exact ⟨hcallback.reaches, hrest.receivers, hrest.main, hrest.owner⟩
  | update =>
      have hupdate := update_run threading s (by rw [hrest.main]) fun q => hrest.owner _
      exact ⟨hupdate.reaches, hrest.receivers, hrest.main, hrest.owner⟩

theorem performs_run (runner : Callback → T) (hruns : ∀ cb, threading.runs (runner cb) cb)
    (inputs : List Input) :
    Reaches (Step threading) {} (inputs.foldl System.perform {}) ∧
      (inputs.foldl System.perform ({} : System T)).AtRest := by
  induction inputs using List.reverseRecOn with
  | nil => exact ⟨.refl, fun _ => rfl, rfl, fun _ => rfl⟩
  | append_singleton inputs input ih =>
      rw [List.foldl_concat]
      obtain ⟨hrun, hrest⟩ := perform_run threading ih.2 runner hruns input
      exact ⟨ih.1.trans hrun, hrest⟩

/-- Every session of whole callbacks and whole updates is a run of the system:
it ends with the same object, and the client is a fold over the events that the
run handed over. -/
theorem session_run (runner : Callback → T) (hruns : ∀ cb, threading.runs (runner cb) cb)
    (inputs : List Input) :
    ∃ s : System T, Reaches (Step threading) {} s ∧ s.AtRest ∧
      s.addon = (Session.run {} inputs).addon ∧
      (Session.run {} inputs).client = OfApp.handleAll {} (s.log.filterMap Record.handed?) := by
  obtain ⟨hreaches, hrest⟩ := performs_run threading runner hruns inputs
  refine ⟨_, hreaches, hrest, ?_⟩
  induction inputs using List.reverseRecOn with
  | nil => exact ⟨rfl, rfl⟩
  | append_singleton inputs input ih =>
      obtain ⟨hrun, hrest⟩ := performs_run threading runner hruns inputs
      obtain ⟨haddon, hclient⟩ := ih hrun hrest
      have hstep : Session.run {} (inputs ++ [input]) = (Session.run {} inputs).step input := by
        rw [Session.run, List.foldl_concat, Session.run]
      rw [hstep, List.foldl_concat]
      cases input with
      | callback cb =>
          have hnone : (.arrived cb :: cb.sections.map Record.ran).filterMap Record.handed? = [] :=
            List.filterMap_eq_nil_iff.mpr (by simp [Record.handed?])
          rw [System.perform, Session.step, haddon, List.filterMap_append, hnone, List.append_nil]
          exact ⟨rfl, hclient⟩
      | update =>
          have hhanded (events : List Event) :
              (events.map Record.handed).filterMap Record.handed? = events := by
            rw [List.filterMap_map]
            exact List.filterMap_some
          rw [System.perform, Session.step, haddon, List.filterMap_append, hhanded,
            OfApp.handleAll_append, ← hclient]
          exact ⟨rfl, rfl⟩

end DjLink
