import DjLink.Lifecycle
import DjLink.Sharing

/-!
The device number of `VirtualCdj`: the number that `startVirtualCdj(n)` asks
for against the one that `getVirtualCdjDeviceNumber()` reports.

To its user an object has a session, which is idle or runs under a number. The
session is an automaton over the calls on the object, and an object that is the
only user of `VirtualCdj` goes through its states. A session runs under the
number of the request that started it, narrowed to the byte that the protocol
has for it; a request that finds a session running is answered with that
session, whatever number it names.
-/

namespace DjLink

/-! ### Sessions -/

/-- The `VirtualCdj` session of an object, as its user sees it. -/
inductive CdjSession where
  | idle
  | active (deviceNumber : UInt8)
  | destroyed

/-- The number under which a start succeeds: the one it finds free for 0, and
otherwise `static_cast<uint8_t>` of the request. -/
def grantedNumber (deviceNumber : Int) (assigned : UInt8) : UInt8 :=
  if deviceNumber = 0 then assigned else UInt8.ofInt deviceNumber

/-- The request is a number of the protocol's one byte. -/
def FitsByte (deviceNumber : Int) : Prop := 0 ≤ deviceNumber ∧ deviceNumber < 256

theorem grantedNumber_of_fits {n : Int} (hn : n ≠ 0) (hfits : FitsByte n) (assigned : UInt8) :
    ((grantedNumber n assigned).toNat : Int) = n := by
  obtain ⟨hlow, hhigh⟩ := hfits
  have hmod : n % 256 = n := Int.emod_eq_of_lt hlow hhigh
  have hlt : n.toNat < 256 := by omega
  have hbyte : UInt8.ofInt n = UInt8.ofNat n.toNat := by
    show UInt8.ofNat (n % 256).toNat = UInt8.ofNat n.toNat
    rw [hmod]
  rw [grantedNumber, if_neg hn, hbyte, UInt8.toNat_ofNat_of_lt' hlt, Int.toNat_of_nonneg hlow]

example : grantedNumber 257 0 = 1 := rfl

namespace CdjSession

def step (session : CdjSession) (c : Call) : CdjSession :=
  match session, c with
  | .destroyed, _ => .destroyed
  | _, .destroy => .destroyed
  | _, .stopVirtualCdj => .idle
  | .idle, .startVirtualCdj deviceNumber true assigned =>
      .active (grantedNumber deviceNumber assigned)
  | session, _ => session

def run (session : CdjSession) (calls : List Call) : CdjSession := calls.foldl step session

/-- What a session reports as its number. -/
def deviceNumber : CdjSession → Int
  | .active number => number.toNat
  | .idle => 0
  | .destroyed => 0

theorem run_concat (session : CdjSession) (calls : List Call) (c : Call) :
    session.run (calls ++ [c]) = (session.run calls).step c := by
  rw [run, List.foldl_concat, run]

@[simp] theorem step_start (session : CdjSession) (d b : Bool) :
    session.step (.start d b) = session := by
  cases session <;> rfl

@[simp] theorem step_stop (session : CdjSession) : session.step .stop = session := by
  cases session <;> rfl

/-- How a session comes to run under `number`: it did and was not stopped, or
it was idle and is started. -/
theorem step_eq_active {session : CdjSession} {c : Call} {number : UInt8}
    (h : session.step c = .active number) :
    (session = .active number ∧ ¬ c.StopsVirtualCdj) ∨
      session = .idle ∧ ∃ n assigned, c = .startVirtualCdj n true assigned ∧
        number = grantedNumber n assigned := by
  cases session with
  | destroyed => cases h
  | active running =>
      left
      cases c with
      | stopVirtualCdj => cases h
      | destroy => cases h
      | start d b => exact ⟨h, id⟩
      | stop => exact ⟨h, id⟩
      | startVirtualCdj n s a => exact ⟨h, id⟩
  | idle =>
      right
      cases c with
      | startVirtualCdj n s a =>
          cases s with
          | true => exact ⟨rfl, n, a, rfl, (CdjSession.active.inj h).symm⟩
          | false => cases h
      | stopVirtualCdj => cases h
      | destroy => cases h
      | start d b => cases h
      | stop => cases h

/-- A session that runs was started by one of the calls while it was idle, and
no later call has stopped it. -/
theorem exists_start {calls : List Call} {number : UInt8}
    (h : run .idle calls = .active number) :
    ∃ before n assigned after,
      calls = before ++ .startVirtualCdj n true assigned :: after ∧
        run .idle before = .idle ∧ (∀ c ∈ after, ¬ c.StopsVirtualCdj) ∧
        number = grantedNumber n assigned := by
  induction calls using List.reverseRecOn with
  | nil => cases h
  | append_singleton calls c ih =>
      rw [run_concat] at h
      rcases step_eq_active h with ⟨hactive, hspares⟩ | ⟨hidle, n, assigned, rfl, hnumber⟩
      · obtain ⟨before, n, assigned, after, rfl, hbefore, hafter, hnumber⟩ := ih hactive
        refine ⟨before, n, assigned, after ++ [c], by simp, hbefore, fun x hx => ?_, hnumber⟩
        rcases List.mem_append.mp hx with hx | hx
        · exact hafter x hx
        · rwa [List.mem_singleton.mp hx]
      · exact ⟨calls, n, assigned, [], rfl, hidle, by simp, hnumber⟩

end CdjSession

/-! ### The object behind a session -/

/-- The session of an object, or of one that was destroyed. -/
def CdjSession.ofObject (object : Option OfxBeatLink) (virtualCdj : VirtualCdj) : CdjSession :=
  match object with
  | none => .destroyed
  | some self => if self.virtualCdjRunning then .active virtualCdj.deviceNumber else .idle

theorem CdjSession.ofObject_of_running {self : OfxBeatLink} (h : self.virtualCdjRunning = true)
    (virtualCdj : VirtualCdj) :
    ofObject (some self) virtualCdj = .active virtualCdj.deviceNumber := if_pos h

theorem CdjSession.ofObject_of_not_running {self : OfxBeatLink}
    (h : self.virtualCdjRunning = false) (virtualCdj : VirtualCdj) :
    ofObject (some self) virtualCdj = .idle := by
  rw [ofObject, h]
  rfl

/-- Nothing of `VirtualCdj` has changed but the name of one that does not
run. -/
def VirtualCdj.SameSession (before after : VirtualCdj) : Prop :=
  { after with deviceName := before.deviceName } = before ∧
    (before.running = true → after = before)

namespace OfxBeatLink

theorem getVirtualCdjDeviceNumber_eq (self : OfxBeatLink) (virtualCdj : VirtualCdj) :
    self.getVirtualCdjDeviceNumber virtualCdj =
      (CdjSession.ofObject (some self) virtualCdj).deviceNumber := by
  cases h : self.virtualCdjRunning <;>
    simp [getVirtualCdjDeviceNumber, CdjSession.ofObject, CdjSession.deviceNumber, h]

theorem fitsByte_getVirtualCdjDeviceNumber (self : OfxBeatLink) (virtualCdj : VirtualCdj) :
    FitsByte (self.getVirtualCdjDeviceNumber virtualCdj) := by
  have hlt := virtualCdj.deviceNumber.toNat_lt
  rw [getVirtualCdjDeviceNumber]
  split
  · exact ⟨by omega, by omega⟩
  · exact ⟨by omega, by omega⟩

section

variable (self : OfxBeatLink) (this : ObjectId) (lib : Singletons)

/-- One call takes the session of an only user of `VirtualCdj` one step
further, and leaves the object its only user. -/
theorem session_call (h : lib.virtualCdj.running = self.virtualCdjRunning) (c : Call) :
    let after := self.call this lib c
    after.2.virtualCdj.running = after.1.any isVirtualCdjRunning ∧
      CdjSession.ofObject after.1 after.2.virtualCdj =
        (CdjSession.ofObject (some self) lib.virtualCdj).step c := by
  cases c with
  | start d b =>
      simp only [call, start_object, start_virtualCdj, CdjSession.step_start]
      exact ⟨h, rfl⟩
  | stop =>
      simp only [call, stop_object, stop_virtualCdj, CdjSession.step_stop]
      exact ⟨h, rfl⟩
  | startVirtualCdj n s a =>
      cases hrunning : self.virtualCdjRunning with
      | true =>
          simp only [call, startVirtualCdj_of_running self this lib n s a hrunning]
          rw [CdjSession.ofObject_of_running hrunning]
          exact ⟨h, rfl⟩
      | false =>
          rw [CdjSession.ofObject_of_not_running hrunning]
          rw [hrunning] at h
          cases s with
          | true =>
              obtain ⟨-, hself, -, -, hstarted⟩ :=
                startVirtualCdj_of_started self this lib n a hrunning
              have hnumber := startVirtualCdj_deviceNumber self this lib n a hrunning h
              simp only [call, hself]
              exact ⟨hstarted, congrArg CdjSession.active hnumber⟩
          | false =>
              obtain ⟨-, hself, -, -, hstopped⟩ :=
                startVirtualCdj_of_failed self this lib n a hrunning
              simp only [call, hself]
              refine ⟨?_, CdjSession.ofObject_of_not_running hrunning _⟩
              rw [hstopped, h]
              exact hrunning.symm
  | stopVirtualCdj =>
      cases hrunning : self.virtualCdjRunning with
      | true =>
          obtain ⟨hself, hlib⟩ := stopVirtualCdj_of_running self lib hrunning
          simp only [call, hself, hlib]
          rw [CdjSession.ofObject_of_running hrunning]
          exact ⟨rfl, rfl⟩
      | false =>
          simp only [call, stopVirtualCdj_of_not_running self lib hrunning]
          rw [CdjSession.ofObject_of_not_running hrunning]
          exact ⟨h, rfl⟩
  | destroy =>
      simp only [call, destroy_virtualCdj]
      cases hrunning : self.virtualCdjRunning with
      | true =>
          rw [(stopVirtualCdj_of_running self lib hrunning).2,
            CdjSession.ofObject_of_running hrunning]
          exact ⟨rfl, rfl⟩
      | false =>
          rw [stopVirtualCdj_of_not_running self lib hrunning,
            CdjSession.ofObject_of_not_running hrunning]
          exact ⟨h.trans hrunning, rfl⟩

end

end OfxBeatLink

namespace Process

/-- The session of the object `this`. -/
def cdjSession (p : Process) (this : ObjectId) : CdjSession :=
  CdjSession.ofObject (p.objects this) p.lib.virtualCdj

/-- `VirtualCdj` runs exactly while the object reports it: no one else uses
it. -/
def OnlyUser (p : Process) (this : ObjectId) : Prop :=
  p.lib.virtualCdj.running = p.isVirtualCdjRunning this

variable {p : Process} {this : ObjectId}

theorem cdjSession_of_some {self : OfxBeatLink} (h : p.objects this = some self) :
    p.cdjSession this = CdjSession.ofObject (some self) p.lib.virtualCdj := by
  rw [cdjSession, h]

theorem not_running_of_idle (h : p.cdjSession this = .idle) :
    p.isVirtualCdjRunning this = false := by
  cases hobject : p.objects this with
  | none => simp [isVirtualCdjRunning, hobject]
  | some self =>
      rw [isVirtualCdjRunning_of_some hobject]
      by_contra hrunning
      rw [cdjSession_of_some hobject,
        CdjSession.ofObject_of_running (Bool.of_not_eq_false hrunning)] at h
      cases h

theorem OnlyUser.step (h : p.OnlyUser this) (c : Call) :
    (p.step this c).OnlyUser this ∧
      (p.step this c).cdjSession this = (p.cdjSession this).step c := by
  cases hobject : p.objects this with
  | none =>
      rw [step_of_none hobject]
      refine ⟨h, ?_⟩
      rw [cdjSession, hobject]
      rfl
  | some self =>
      rw [OnlyUser, isVirtualCdjRunning_of_some hobject] at h
      rw [OnlyUser, isVirtualCdjRunning, cdjSession, cdjSession, step_objects_self hobject,
        step_lib hobject, hobject]
      exact self.session_call this p.lib h c

/-- An only user goes through the states of the session. -/
theorem OnlyUser.runOn (h : p.OnlyUser this) (calls : List Call) :
    (p.runOn this calls).OnlyUser this ∧
      (p.runOn this calls).cdjSession this = (p.cdjSession this).run calls := by
  induction calls using List.reverseRecOn with
  | nil => exact ⟨h, rfl⟩
  | append_singleton calls c ih =>
      obtain ⟨honly, hsession⟩ := ih
      rw [runOn_concat, CdjSession.run_concat, ← hsession]
      exact honly.step c

theorem Fresh.onlyUser (h : p.Fresh this) (hidle : p.lib.virtualCdj.running = false) :
    p.OnlyUser this ∧ p.cdjSession this = .idle := by
  rw [OnlyUser, isVirtualCdjRunning, cdjSession, h.object]
  exact ⟨hidle, rfl⟩

end Process

/-! ### Requests -/

/-- What a request for the number `n` comes to. Where no session runs, a
success is a session under `n` if `n` fits into a byte; a session that runs
goes on as it is, and the request succeeds; a refusal changes nothing, and
comes only where no session runs. -/
structure OfxBeatLink.AnswersRequest (object : OfxBeatLink) (this : ObjectId) (lib : Singletons)
    (n : Int) (started : Bool) (assigned : UInt8) : Prop where
  granted : object.isVirtualCdjRunning = false → FitsByte n →
    let result := object.startVirtualCdj this lib n started assigned
    result.1 = true → result.2.1.getVirtualCdjDeviceNumber result.2.2.virtualCdj = n
  running : object.isVirtualCdjRunning = true →
    object.startVirtualCdj this lib n started assigned = (true, object, lib)
  refused : let result := object.startVirtualCdj this lib n started assigned
    result.1 = false → object.isVirtualCdjRunning = false ∧ result.2.1 = object ∧
      lib.virtualCdj.SameSession result.2.2.virtualCdj

/-- The stricter contract: a success is a session under `n`, and a number that
does not fit into a byte, or is not that of the session that runs, is refused
with nothing changed. -/
structure OfxBeatLink.HonoursRequest (object : OfxBeatLink) (this : ObjectId) (lib : Singletons)
    (n : Int) (started : Bool) (assigned : UInt8) : Prop where
  granted : let result := object.startVirtualCdj this lib n started assigned
    result.1 = true → result.2.1.getVirtualCdjDeviceNumber result.2.2.virtualCdj = n
  refused : let result := object.startVirtualCdj this lib n started assigned
    ¬ FitsByte n ∨
        object.isVirtualCdjRunning = true ∧ object.getVirtualCdjDeviceNumber lib.virtualCdj ≠ n →
      result.1 = false ∧ result.2.1 = object ∧ lib.virtualCdj.SameSession result.2.2.virtualCdj

namespace OfxBeatLink

variable {self : OfxBeatLink} {this : ObjectId} {lib : Singletons} {others : VirtualCdj}

/-- To forget pointers that are null changes nothing. -/
theorem forget_listeners (hupdate : self.deviceUpdateListener = none)
    (hmaster : self.masterListener = none) :
    { self with deviceUpdateListener := none, masterListener := none } = self := by
  cases self
  cases hupdate
  cases hmaster
  rfl

/-- A refusal leaves the object as it was, and of `VirtualCdj` all but the
name. -/
theorem Owns.sameSession_of_failed (h : self.Owns this lib others)
    (honly : lib.virtualCdj.running = self.virtualCdjRunning) {n : Int} {s : Bool} {a : UInt8}
    (hfail : (self.startVirtualCdj this lib n s a).1 = false) :
    self.isVirtualCdjRunning = false ∧ (self.startVirtualCdj this lib n s a).2.1 = self ∧
      lib.virtualCdj.SameSession (self.startVirtualCdj this lib n s a).2.2.virtualCdj := by
  obtain ⟨hupdates, hmasters, hupdate, hmaster, -⟩ := h.startVirtualCdj_failed hfail
  rw [startVirtualCdj_result, Bool.or_eq_false_iff] at hfail
  obtain ⟨hrunning, rfl⟩ := hfail
  have hself := (startVirtualCdj_of_failed self this lib n a hrunning).2.1
  obtain ⟨updates, masters, hlib⟩ :=
    startVirtualCdj_virtualCdj_of_failed self this lib n a hrunning
  rw [hlib] at hupdates hmasters ⊢
  obtain rfl : updates = lib.virtualCdj.updateListeners := hupdates
  obtain rfl : masters = lib.virtualCdj.masterListeners := hmasters
  rw [hself] at hupdate hmaster ⊢
  refine ⟨hrunning, forget_listeners hupdate.symm hmaster.symm, rfl, fun hother => ?_⟩
  rw [honly, hrunning] at hother
  cases hother

theorem Owns.answersRequest (h : self.Owns this lib others)
    (honly : lib.virtualCdj.running = self.virtualCdjRunning) {n : Int} (hn : n ≠ 0)
    (started : Bool) (assigned : UInt8) : self.AnswersRequest this lib n started assigned where
  granted hidle hfits := by
    intro result hgranted
    have hrunning : self.virtualCdjRunning = false := hidle
    obtain rfl : started = true := by
      rwa [startVirtualCdj_result, hrunning, Bool.false_or] at hgranted
    have hnumber : result.2.2.virtualCdj.deviceNumber = grantedNumber n assigned :=
      startVirtualCdj_deviceNumber self this lib n assigned hrunning (honly.trans hrunning)
    have hactive : result.2.1.virtualCdjRunning = true := by
      rw [startVirtualCdj_virtualCdjRunning, startVirtualCdj_result, Bool.or_true]
    rw [getVirtualCdjDeviceNumber_eq, CdjSession.ofObject_of_running hactive, hnumber]
    exact grantedNumber_of_fits hn hfits assigned
  running hrunning := startVirtualCdj_of_running self this lib n started assigned hrunning
  refused := fun hfail => h.sameSession_of_failed honly hfail

/-- Exactly when the stricter contract is kept: where a session runs, the
request has to name its number; where none runs, the library has to refuse a
number that does not fit into a byte. -/
theorem Owns.honoursRequest_iff (h : self.Owns this lib others)
    (honly : lib.virtualCdj.running = self.virtualCdjRunning) {n : Int} (hn : n ≠ 0)
    (started : Bool) (assigned : UInt8) :
    self.HonoursRequest this lib n started assigned ↔
      if self.isVirtualCdjRunning then self.getVirtualCdjDeviceNumber lib.virtualCdj = n
      else started = true → FitsByte n := by
  have hanswer := h.answersRequest honly hn started assigned
  cases hrunning : self.isVirtualCdjRunning with
  | true =>
      have hresult := hanswer.running hrunning
      rw [if_pos rfl]
      constructor
      · intro hhonours
        have hgranted := hhonours.granted
        rw [hresult] at hgranted
        exact hgranted rfl
      · intro hnumber
        refine ⟨?_, ?_⟩
        · rw [hresult]
          exact fun _ => hnumber
        · rintro result (hwide | ⟨-, hother⟩)
          · rw [← hnumber] at hwide
            exact absurd (fitsByte_getVirtualCdjDeviceNumber self lib.virtualCdj) hwide
          · exact absurd hnumber hother
  | false =>
      rw [if_neg Bool.false_ne_true]
      constructor
      · intro hhonours hstarted
        by_contra hwide
        have hrefused := (hhonours.refused (.inl hwide)).1
        rw [startVirtualCdj_result, hstarted, Bool.or_true] at hrefused
        cases hrefused
      · intro hfits
        cases started with
        | true =>
            refine ⟨hanswer.granted hrunning (hfits rfl), ?_⟩
            rintro result (hwide | ⟨hother, -⟩)
            · exact absurd (hfits rfl) hwide
            · rw [hrunning] at hother
              cases hother
        | false =>
            have hfailed : (self.startVirtualCdj this lib n false assigned).1 = false := by
              rw [startVirtualCdj_result, Bool.or_false]
              exact hrunning
            refine ⟨fun hgranted => ?_, fun _ => ⟨hfailed, (hanswer.refused hfailed).2⟩⟩
            rw [hfailed] at hgranted
            cases hgranted

end OfxBeatLink

/-- `number` is what a call of `calls` asked for that found no session running
and succeeded, and no call after it stopped the session. A request that does
not fit into a byte may be any number. -/
def Process.Requested (p : Process) (this : ObjectId) (calls : List Call) (number : Int) : Prop :=
  ∃ before n assigned after, calls = before ++ .startVirtualCdj n true assigned :: after ∧
    (p.runOn this before).isVirtualCdjRunning this = false ∧
    (∀ c ∈ after, ¬ c.StopsVirtualCdj) ∧ (n ≠ 0 → FitsByte n → number = n)

/-- **Granted and requested numbers.** In every state that calls on an object
lead to, with no one else using `VirtualCdj`: every request for a number other
than 0 is answered as `AnswersRequest` says, and a session that runs has the
number that the call that started it asked for. -/
theorem granted_number_requested {p : Process} {this : ObjectId} (hfresh : p.Fresh this)
    (hidle : p.lib.virtualCdj.running = false) (calls : List Call) :
    let q := p.runOn this calls
    ∀ self, q.objects this = some self →
      (∀ n, n ≠ 0 → ∀ started assigned, self.AnswersRequest this q.lib n started assigned) ∧
      (self.isVirtualCdjRunning = true →
        p.Requested this calls (self.getVirtualCdjDeviceNumber q.lib.virtualCdj)) := by
  intro q self hself
  obtain ⟨honly, hidle⟩ := hfresh.onlyUser hidle
  have howns : self.Owns this q.lib p.lib.virtualCdj :=
    (hfresh.listenersOwned.runOn calls).of_some hself
  obtain ⟨honlyq, hsession⟩ := honly.runOn calls
  rw [Process.OnlyUser, Process.isVirtualCdjRunning_of_some hself] at honlyq
  refine ⟨fun n hn started assigned => howns.answersRequest honlyq hn started assigned,
    fun hrunning => ?_⟩
  have hactive : CdjSession.ofObject (some self) q.lib.virtualCdj =
      .active q.lib.virtualCdj.deviceNumber := CdjSession.ofObject_of_running hrunning _
  rw [Process.cdjSession_of_some hself, hactive, hidle] at hsession
  obtain ⟨before, n, assigned, after, hcalls, hbefore, hafter, hnumber⟩ :=
    CdjSession.exists_start hsession.symm
  refine ⟨before, n, assigned, after, hcalls, ?_, hafter, fun hn hfits => ?_⟩
  · apply Process.not_running_of_idle
    rw [(honly.runOn before).2, hidle]
    exact hbefore
  · rw [OfxBeatLink.getVirtualCdjDeviceNumber_eq, hactive, hnumber]
    exact grantedNumber_of_fits hn hfits assigned

/-- A session under 5 is stopped, and one under 3 is started. -/
theorem granted_number_requested_of_restart :
    let calls := [Call.startVirtualCdj 5 true 0, .stopVirtualCdj, .startVirtualCdj 3 true 0]
    let q := Process.initial.runOn 0 calls
    ∃ self, q.objects 0 = some self ∧
      (∀ n, n ≠ 0 → ∀ started assigned, self.AnswersRequest 0 q.lib n started assigned) ∧
      Process.initial.Requested 0 calls 3 := by
  intro calls q
  obtain ⟨hanswers, hrequested⟩ :=
    granted_number_requested (Process.initial_fresh 0) rfl calls _ rfl
  exact ⟨_, rfl, hanswers, hrequested rfl⟩

/-- A session under 3 is asked for 4: the request succeeds, and the session
goes on under 3. -/
theorem running_number_kept :
    let p := Process.initial.runOn 0 [.startVirtualCdj 3 true 0]
    ∃ self, p.objects 0 = some self ∧ ¬ self.HonoursRequest 0 p.lib 4 true 0 := by
  intro p
  refine ⟨_, rfl, fun hhonours => ?_⟩
  have hnumber : (3 : Int) = 4 := hhonours.granted rfl
  exact absurd hnumber (by decide)

end DjLink
