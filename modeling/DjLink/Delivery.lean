import DjLink.Sequential
import DjLink.Receivers
import DjLink.Library.Channel

/-!
Delivery. Each queue, seen through the log, is a first-in first-out channel:
every step of the system is a send, a receive or nothing to it, whoever moves.
The channel law then says, in every reachable state, that what was handed over
followed by what is queued is what was pushed.

While the main thread drains a queue it holds the queue's mutex, so nobody
pushes to it: a drain hands over what it found, and stops early only by an
exception, which leaves the rest where it is.
-/

namespace DjLink

open Transition

def Record.channelOp (q : Queue) : Record → Option (Channel.Op Event)
  | .ran sec => (sec.event?.filter fun e => e.queue = q).map Channel.Op.send
  | .handed event => if event.queue = q then some (.receive event) else none
  | .arrived _ => none

/-- The events pushed to `q`, in the order in which the pushes took the
mutex. -/
def pushed (q : Queue) (log : List Record) : List Event :=
  log.filterMap fun r => r.pushed?.filter fun e => e.queue = q

def handed (q : Queue) (log : List Record) : List Event :=
  log.filterMap fun r => r.handed?.filter fun e => e.queue = q

theorem handed_append (q : Queue) (log more : List Record) :
    handed q (log ++ more) = handed q log ++ handed q more :=
  List.filterMap_append

theorem filterMap_sent (q : Queue) (log : List Record) :
    (log.filterMap (Record.channelOp q)).filterMap Channel.Op.sent = pushed q log := by
  rw [List.filterMap_filterMap, pushed]
  congr 1
  funext r
  cases r with
  | arrived cb => rfl
  | ran sec =>
      rw [Record.channelOp, Record.pushed?]
      cases sec.event?.filter fun e => e.queue = q <;> rfl
  | handed event => by_cases hq : event.queue = q <;> simp [Record.channelOp, hq] <;> rfl

theorem filterMap_received (q : Queue) (log : List Record) :
    (log.filterMap (Record.channelOp q)).filterMap Channel.Op.received = handed q log := by
  rw [List.filterMap_filterMap, handed]
  congr 1
  funext r
  cases r with
  | arrived cb => rfl
  | ran sec =>
      rw [Record.channelOp, Record.handed?]
      cases sec.event?.filter fun e => e.queue = q <;> rfl
  | handed event =>
      by_cases hq : event.queue = q <;>
        simp [Record.channelOp, Record.handed?, hq, Channel.Op.received, Option.filter]

/-! ### One step -/

/-- From `s` to `t` the log grew by `records`, and to each queue these records
were a path of its channel. -/
def Appends {T : Type} (s t : System T) (records : List Record) : Prop :=
  t.log = s.log ++ records ∧
    ∀ q, Channel.Path (s.addon.queued q) (records.filterMap (Record.channelOp q))
      (t.addon.queued q)

theorem Appends.trans {T : Type} {s t u : System T} {records more : List Record}
    (h₁ : Appends s t records) (h₂ : Appends t u more) : Appends s u (records ++ more) := by
  refine ⟨by rw [h₂.1, h₁.1, List.append_assoc], fun q => ?_⟩
  rw [List.filterMap_append]
  exact (h₁.2 q).trans (h₂.2 q)

theorem Appends.silent {T : Type} {s t : System T} (hlog : t.log = s.log)
    (hqueued : ∀ q, t.addon.queued q = s.addon.queued q) : Appends s t [] := by
  refine ⟨by rw [hlog, List.append_nil], fun q => ?_⟩
  rw [hqueued q]
  exact .nil _

@[simp] theorem Op.queued_effect (op : Op) (self : OfxBeatLink) (q : Queue) :
    (op.effect self).queued q = self.queued q := by
  cases op <;> cases q <;> rfl

variable {T : Type} [DecidableEq T] {threading : Threading T}

/-- Every step is, to every queue, a path of its channel, and who pushes to a
queue has found its mutex free. -/
theorem Step.appends {s t : System T} {l : Label T} (h : Step threading s l t) :
    ∃ records, Appends s t records ∧ ∀ q, pushed q records ≠ [] → s.owner q.mutex = none := by
  cases h.effect with
  | arrival r cb hruns hidle htodo hlog haddon =>
      refine ⟨[.arrived cb], ⟨hlog, fun q => ?_⟩, fun q hpushed => absurd rfl hpushed⟩
      rw [haddon]
      exact .nil _
  | ran r sec rest hr hfree htodo hlog haddon =>
      refine ⟨[.ran sec], ⟨hlog, fun q => ?_⟩, fun q hpushed => ?_⟩
      · rw [haddon, OfxBeatLink.queued_runSection]
        cases hsec : sec.event? with
        | none => simpa [Record.channelOp, hsec] using Channel.Path.nil (s.addon.queued q)
        | some e =>
            by_cases hq : e.queue = q
            · simpa [Record.channelOp, hsec, hq] using
                Channel.Path.single (Channel.Step.send (s.addon.queued q) e)
            · simpa [Record.channelOp, hsec, hq] using Channel.Path.nil (s.addon.queued q)
      · cases sec with
        | push event =>
            have hq : event.queue = q := by
              by_contra hne
              simp [pushed, Record.pushed?, Section.event?, hne] at hpushed
            rw [← hq]
            exact hfree
        | storeBeat ofBeat => exact absurd rfl hpushed
        | eraseBeat d => exact absurd rfl hpushed
        | storeStatus ofStatus => exact absurd rfl hpushed
  | handed q event hl hpop htodo hlog =>
      refine ⟨[.handed event], ⟨hlog, fun r => ?_⟩, fun q hpushed => absurd rfl hpushed⟩
      obtain ⟨-, hqueued⟩ := OfxBeatLink.queued_pop hpop
      rw [hqueued r]
      by_cases hr : event.queue = r
      · simpa [Record.channelOp, hr] using
          Channel.Path.single (Channel.Step.receive event (t.addon.queued r))
      · simpa [Record.channelOp, hr] using Channel.Path.nil (t.addon.queued r)
  | op op htodo hlog haddon =>
      refine ⟨[], .silent hlog fun q => ?_, fun q hpushed => absurd rfl hpushed⟩
      rw [haddon, Op.queued_effect]
  | silent htodo hlog haddon =>
      refine ⟨[], .silent hlog fun q => ?_, fun q hpushed => absurd rfl hpushed⟩
      rw [haddon]

/-! ### Whole runs -/

theorem appends_of_runs {P : System T → Label T → Prop} {s t : System T}
    (h : Runs (Step threading) P s t) : ∃ records, Appends s t records := by
  refine h.relate (R := fun s t => ∃ records, Appends s t records)
    (fun s => ⟨[], .silent rfl fun q => rfl⟩) ?_
  rintro s t l u ⟨records, hst⟩ _ hstep
  obtain ⟨more, htu, -⟩ := hstep.appends
  exact ⟨records ++ more, hst.trans htu⟩

theorem handed_append_queued {s : System T} (h : Reaches (Step threading) {} s) (q : Queue) :
    handed q s.log ++ s.addon.queued q = pushed q s.log := by
  obtain ⟨records, hlog, hpath⟩ := appends_of_runs h
  have hrecords : s.log = records := hlog
  have hlaw := (hpath q).law
  have hempty : ({} : System T).addon.queued q = [] := by cases q <;> rfl
  rw [filterMap_received, filterMap_sent, hempty, List.nil_append] at hlaw
  rw [hrecords]
  exact hlaw

/-! ### Drains -/

/-- `update()` is in the loop that drains `q`, or in a handler of its events. -/
def Main.InDrain (main : Main) (q : Queue) : Prop :=
  main.activity = .loop q ∨ q ∈ main.handlers

theorem Main.mem_held_of_inDrain {main : Main} {q : Queue} (h : main.InDrain q) :
    q.mutex ∈ main.held := by
  rw [Main.held, List.mem_append]
  rcases h with hloop | hhandler
  · left
    rw [hloop]
    simp
  · right
    exact List.mem_map_of_mem hhandler

theorem pushed_eq_nil_of_inDrain {s t : System T} {l : Label T} (hs : s.Exclusive) {q : Queue}
    (hdrain : s.main.InDrain q) (h : Step threading s l t) :
    ∃ records, Appends s t records ∧ pushed q records = [] := by
  obtain ⟨records, happends, hfree⟩ := h.appends
  refine ⟨records, happends, ?_⟩
  by_contra hpushed
  have howner := (hs.consistent .main q.mutex).mp (Main.mem_held_of_inDrain hdrain)
  rw [hfree q hpushed] at howner
  cases howner

/-- For as long as a queue is being drained, what is handed over and what is
left make up what it held at the beginning. -/
theorem handed_append_queued_of_drain {s t : System T} (hs : s.Exclusive) {q : Queue}
    (h : Runs (Step threading) (fun u _ => u.main.InDrain q) s t) :
    ∃ records, t.log = s.log ++ records ∧
      handed q records ++ t.addon.queued q = s.addon.queued q := by
  have hrun : s.Exclusive → t.Exclusive ∧
      ∃ records, Appends s t records ∧ pushed q records = [] := by
    refine h.relate (R := fun s t => s.Exclusive → t.Exclusive ∧
      ∃ records, Appends s t records ∧ pushed q records = [])
      (fun s hs => ⟨hs, [], .silent rfl fun q => rfl, rfl⟩) ?_
    rintro s t l u hst hdrain hstep hs
    obtain ⟨ht, records, happends, hnone⟩ := hst hs
    obtain ⟨more, hmore, hnone'⟩ := pushed_eq_nil_of_inDrain ht hdrain hstep
    refine ⟨hstep.exclusive ht, records ++ more, happends.trans hmore, ?_⟩
    rw [pushed, List.filterMap_append]
    exact List.append_eq_nil_iff.mpr ⟨hnone, hnone'⟩
  obtain ⟨-, records, ⟨hlog, hpath⟩, hnone⟩ := hrun hs
  refine ⟨records, hlog, ?_⟩
  have hsent : (records.filterMap (Record.channelOp q)).filterMap Channel.Op.sent = [] := by
    rw [filterMap_sent, hnone]
  have hlaw := (hpath q).received_append_of_sent_nil hsent
  rwa [filterMap_received] at hlaw

/-- A drain is left in two ways: the loop finds the queue empty, or a handler
throws. Neither touches the queues or the log. -/
theorem leaves_drain {s t : System T} {l : Label T} {q : Queue} (h : Step threading s l t)
    (hs : s.main.InDrain q) (ht : ¬ t.main.InDrain q) :
    t.log = s.log ∧ t.addon = s.addon ∧
      ((l = .main ∧ s.addon.queued q = []) ∨ l = .handlerThrows) := by
  -- whoever is in a handler of `q` before a step is in it afterwards, but for a throw
  have hhandler : (∀ r, s.main.activity = .loop r → r ≠ q) → q ∈ s.main.handlers := by
    intro hloop
    exact hs.resolve_left fun heq => hloop q heq rfl
  cases h
  case unlock r hmain hempty =>
    by_cases heq : r = q
    · subst heq
      exact ⟨rfl, rfl, .inl ⟨rfl, (s.addon.pop_eq_none_iff r).mp hempty⟩⟩
    · refine absurd (.inr (hhandler fun r' hr' => ?_)) ht
      obtain rfl : r = r' := by simpa [hmain] using hr'
      exact heq
  case handlerThrows r hs' huser hhandlers => exact ⟨rfl, rfl, .inr rfl⟩
  case notify r event popped hmain hpop =>
    by_cases heq : r = q
    · subst heq
      exact absurd (.inr List.mem_cons_self) ht
    · refine absurd (.inr (List.mem_cons_of_mem r (hhandler fun r' hr' => ?_))) ht
      obtain rfl : r = r' := by simpa [hmain] using hr'
      exact heq
  case handlerReturns r hs' huser hhandlers =>
    have hmem := hhandler fun r' hr' => by simp [huser] at hr'
    rw [hhandlers, List.mem_cons] at hmem
    rcases hmem with rfl | hmem
    · exact absurd (.inl rfl) ht
    · exact absurd (.inr hmem) ht
  -- the receivers leave the main thread alone
  case enter | acquire | release => exact absurd hs ht
  -- and elsewhere the main thread is not at the head of a loop
  case call c huser => exact absurd (.inr (hhandler fun r hr => by simp [huser] at hr)) ht
  case lock r hmain hfree => exact absurd (.inr (hhandler fun r hr => by simp [hmain] at hr)) ht
  case enterGetter c hmain hfree =>
    exact absurd (.inr (hhandler fun r hr => by simp [hmain] at hr)) ht
  case leaveGetter c hmain => exact absurd (.inr (hhandler fun r hr => by simp [hmain] at hr)) ht
  case op op rest hmain hready =>
    exact absurd (.inr (hhandler fun r hr => by simp [hmain] at hr)) ht

/-! ### A drain comes to its end -/

theorem Step.of_loop {s t : System T} {l : Label T} {q : Queue} (h : Step threading s l t)
    (hloop : s.main.activity = .loop q) :
    ((∃ r, l = .receiver r) ∧ t.main = s.main) ∨
      (l = .main ∧ (s.addon.queued q).length = (t.addon.queued q).length + 1 ∧
        q ∈ t.main.handlers) ∨
      (l = .main ∧ s.addon.queued q = [] ∧ t.main.activity = .afterLoop q ∧
        t.owner q.mutex = none ∧ t.log = s.log ∧ t.addon = s.addon) := by
  cases h with
  | enter r cb hruns hidle => exact .inl ⟨⟨r, rfl⟩, rfl⟩
  | acquire r sec rest hreceiver hfree => exact .inl ⟨⟨r, rfl⟩, rfl⟩
  | release r m rest hreceiver => exact .inl ⟨⟨r, rfl⟩, rfl⟩
  | notify r event popped hmain hpop =>
      obtain rfl : q = r := by simpa [hloop] using hmain
      obtain ⟨hqueue, hqueued⟩ := OfxBeatLink.queued_pop hpop
      refine .inr (.inl ⟨rfl, ?_, List.mem_cons_self⟩)
      rw [hqueued q, if_pos hqueue, List.length_append, List.length_singleton]
      exact Nat.add_comm ..
  | unlock r hmain hempty =>
      obtain rfl : q = r := by simpa [hloop] using hmain
      exact .inr (.inr ⟨rfl, (s.addon.pop_eq_none_iff q).mp hempty, rfl,
        Function.update_self .., rfl, rfl⟩)
  | call c huser => simp [hloop] at huser
  | lock r hmain hfree => simp [hloop] at hmain
  | enterGetter c hmain hfree => simp [hloop] at hmain
  | leaveGetter c hmain => simp [hloop] at hmain
  | op op rest hmain hready => simp [hloop] at hmain
  | handlerReturns r hs huser hhandlers => simp [hloop] at huser
  | handlerThrows r hs huser hhandlers => simp [hloop] at huser

/-- An execution that begins in the drain of `q` lets it go on: for as long as
the drain lasts, the main thread gets its turn at the head of the loop, and
every handler comes back to it. -/
structure DrainGoesOn (q : Queue) (trace : ℕ → System T) (label : ℕ → Label T) : Prop where
  turn : ∀ n, (∀ k ≤ n, (trace k).main.InDrain q) → (trace n).main.activity = .loop q →
    ∃ m, n ≤ m ∧ ∀ r, label m ≠ .receiver r
  returns : ∀ n, (∀ k ≤ n, (trace k).main.InDrain q) → q ∈ (trace n).main.handlers →
    ∃ m, n ≤ m ∧ (trace m).main.activity = .loop q ∧
      ∀ k, n ≤ k → k ≤ m → (trace k).main.InDrain q

theorem length_queued_le_of_drain {s t : System T} (hs : s.Exclusive) {q : Queue}
    (h : Runs (Step threading) (fun u _ => u.main.InDrain q) s t) :
    (t.addon.queued q).length ≤ (s.addon.queued q).length := by
  obtain ⟨records, -, hhanded⟩ := handed_append_queued_of_drain hs h
  rw [← hhanded, List.length_append]
  omega

theorem next_turn {trace : ℕ → System T} {label : ℕ → Label T}
    (h : Execution (Step threading) trace label) {q : Queue} {n : ℕ}
    (hloop : (trace n).main.activity = .loop q)
    (hturn : ∃ m, n ≤ m ∧ ∀ r, label m ≠ .receiver r) :
    ∃ m, n ≤ m ∧ (∀ r, label m ≠ .receiver r) ∧
      ∀ k, n ≤ k → k ≤ m → (trace k).main = (trace n).main := by
  classical
  let m := Nat.find hturn
  obtain ⟨hnm, hm⟩ : n ≤ m ∧ ∀ r, label m ≠ .receiver r := Nat.find_spec hturn
  refine ⟨m, hnm, hm, fun k hnk => ?_⟩
  -- before that only receivers move, and they leave the main thread alone
  induction k, hnk using Nat.le_induction with
  | base => exact fun _ => rfl
  | succ k hnk ih =>
      intro hkm
      have hk := ih (by omega)
      obtain ⟨-, hmain⟩ | ⟨hl, -⟩ | ⟨hl, -⟩ := (h k).of_loop (by rw [hk]; exact hloop)
      · exact hmain.trans hk
      all_goals
        refine absurd ⟨hnk, fun r => ?_⟩ (Nat.find_min hturn (show k < m by omega))
        rw [hl]
        exact fun heq => nomatch heq

/-- In step `n` the main thread leaves the loop that drains `q`, which it has not
left before, because it finds the queue empty. -/
structure DrainEndsAt (q : Queue) (trace : ℕ → System T) (label : ℕ → Label T) (n : ℕ) :
    Prop where
  inDrain : ∀ k ≤ n, (trace k).main.InDrain q
  moves : label n = .main
  empty : (trace n).addon.queued q = []
  left : (trace (n + 1)).main.activity = .afterLoop q
  free : (trace (n + 1)).owner q.mutex = none
  log : (trace (n + 1)).log = (trace n).log
  addon : (trace (n + 1)).addon = (trace n).addon

/-- From one turn at the head of the loop to the next: the drain ends, or an
event is handed over and its handler comes back to a shorter queue. -/
theorem drain_round {trace : ℕ → System T} {label : ℕ → Label T}
    (h : Execution (Step threading) trace label) (hexclusive : ∀ n, (trace n).Exclusive)
    {q : Queue} (hgoes : DrainGoesOn q trace label) {n : ℕ}
    (hdrain : ∀ k ≤ n, (trace k).main.InDrain q) (hloop : (trace n).main.activity = .loop q) :
    (∃ m, n ≤ m ∧ DrainEndsAt q trace label m) ∨
      ∃ m, n ≤ m ∧ ((∀ k ≤ m, (trace k).main.InDrain q) ∧ (trace m).main.activity = .loop q) ∧
        ((trace m).addon.queued q).length < ((trace n).addon.queued q).length := by
  obtain ⟨m, hnm, hm, hmain⟩ := next_turn h hloop (hgoes.turn n hdrain hloop)
  have hloopm : (trace m).main.activity = .loop q := by rw [hmain m hnm (Nat.le_refl m), hloop]
  have hdrainm : ∀ k ≤ m, (trace k).main.InDrain q := by
    intro k hkm
    obtain hkn | hnk := Nat.le_total k n
    · exact hdrain k hkn
    · exact .inl (by rw [hmain k hnk hkm, hloop])
  obtain ⟨⟨r, hr⟩, -⟩ | ⟨-, hlength, hhandler⟩ | ⟨hl, hempty, hleft, hfree, hlog, haddon⟩ :=
    (h m).of_loop hloopm
  · exact absurd hr (hm r)
  · have hdrain' : ∀ k ≤ m + 1, (trace k).main.InDrain q := by
      intro k hk
      obtain hkm | rfl := Nat.le_succ_iff.mp hk
      · exact hdrainm k hkm
      · exact .inr hhandler
    obtain ⟨m', hmm', hloop', hdrain''⟩ := hgoes.returns (m + 1) hdrain' hhandler
    have hdrainm' : ∀ k ≤ m', (trace k).main.InDrain q := by
      intro k hk
      obtain hkm | hmk := Nat.le_total k (m + 1)
      · exact hdrain' k hkm
      · exact hdrain'' k hmk hk
    have hfirst := length_queued_le_of_drain (hexclusive n)
      (h.runs hnm fun k _ hkm => hdrainm k (Nat.le_of_lt hkm))
    have hrest := length_queued_le_of_drain (hexclusive (m + 1))
      (h.runs hmm' fun k _ hkm => hdrainm' k (Nat.le_of_lt hkm))
    exact .inr ⟨m', by omega, ⟨hdrainm', hloop'⟩, by omega⟩
  · exact .inl ⟨m, hnm, hdrainm, hl, hempty, hleft, hfree, hlog, haddon⟩

theorem drain_ends {trace : ℕ → System T} {label : ℕ → Label T}
    (h : Execution (Step threading) trace label) (hexclusive : (trace 0).Exclusive) {q : Queue}
    (hloop : (trace 0).main.activity = .loop q) (hgoes : DrainGoesOn q trace label) :
    ∃ n, DrainEndsAt q trace label n := by
  have hexclusive (n : ℕ) : (trace n).Exclusive := by
    induction n with
    | zero => exact hexclusive
    | succ n ih => exact (h n).exclusive ih
  have hstart : ∀ k ≤ 0, (trace k).main.InDrain q := by
    intro k hk
    rw [Nat.le_zero.mp hk]
    exact .inl hloop
  obtain ⟨n, -, hn⟩ := eventually_of_rank (fun n => ((trace n).addon.queued q).length)
    (fun n hn => drain_round h hexclusive hgoes hn.1 hn.2) ⟨hstart, hloop⟩
  exact ⟨n, hn⟩

theorem queue_of_mem_queued {self : OfxBeatLink} {q : Queue} {e : Event}
    (h : e ∈ self.queued q) : e.queue = q := by
  cases q <;> obtain ⟨x, -, rfl⟩ := List.mem_map.mp h <;> rfl

theorem handed_map_queued (self : OfxBeatLink) (q r : Queue) :
    handed q ((self.queued r).map Record.handed) = if r = q then self.queued r else [] := by
  have hguard : (fun r : Record => r.handed?.filter fun e => decide (e.queue = q)) ∘
      Record.handed = Option.guard fun e : Event => decide (e.queue = q) := by
    funext e
    by_cases hq : e.queue = q <;> simp [Record.handed?, Option.filter, Option.guard, hq]
  rw [handed, List.filterMap_map, hguard, List.filterMap_eq_filter]
  split
  next heq => simpa using fun e he => (queue_of_mem_queued he).trans heq
  next hne => simpa using fun e he heq => hne ((queue_of_mem_queued he).symm.trans heq)

theorem handed_map_update (self : OfxBeatLink) (q : Queue) :
    handed q (self.update.2.map Record.handed) = self.queued q := by
  rw [OfxBeatLink.update_handed]
  simp only [List.map_append, handed_append, handed_map_queued]
  cases q <;> simp

theorem handed_of_ne_main {s t : System T} {l : Label T} (h : Step threading s l t)
    (hl : l ≠ .main) (q : Queue) : handed q t.log = handed q s.log := by
  cases h.effect with
  | arrival r cb hruns hidle htodo hlog haddon =>
      rw [hlog, handed_append]
      exact List.append_nil _
  | ran r sec rest hr hfree htodo hlog haddon =>
      rw [hlog, handed_append]
      exact List.append_nil _
  | handed q event hmain hpop htodo hlog => exact absurd hmain hl
  | op op htodo hlog haddon => rw [hlog]
  | silent htodo hlog haddon => rw [hlog]

theorem Step.of_lock {s t : System T} {q : Queue} (h : Step threading s .main t)
    (hlock : s.main.activity = .lock q) :
    t.log = s.log ∧ t.addon = s.addon ∧ t.main.activity = .loop q := by
  cases h with
  | lock r hmain hfree =>
      obtain rfl : q = r := by simpa [hlock] using hmain
      exact ⟨rfl, rfl, rfl⟩
  | notify r event popped hmain hpop => simp [hlock] at hmain
  | unlock r hmain hempty => simp [hlock] at hmain
  | enterGetter c hmain hfree => simp [hlock] at hmain
  | leaveGetter c hmain => simp [hlock] at hmain
  | op op rest hmain hready => simp [hlock] at hmain

/-- **Exactly-once delivery in order.** In every reachable state of the system,
for every queue, what was handed over followed by what is queued is what was
pushed, in the order in which the pushes took the mutex. A drain that locks in
`s` has at every moment handed over a first part of what the queue held in `s`,
with the rest still queued, and if it is not thrown out of it ends with all of
it handed over; and it does end, whatever else is going on, if its handlers
return and the main thread gets its turns. An `update()` that finds the mutexes
free and whose handlers return gets through all five drains. A handler that
throws leaves the log and all queues as they are, and the mutex of its queue
free. Nobody but the main thread hands anything over. -/
theorem delivered_exactly_once (threading : Threading T) {s : System T}
    (h : Reaches (Step threading) {} s) :
    (∀ q, handed q s.log ++ s.addon.queued q = pushed q s.log) ∧
    (∀ q locked t, s.main.activity = .lock q → Step threading s .main locked →
      Runs (Step threading) (fun u _ => u.main.InDrain q) locked t →
      (∃ records, t.log = s.log ++ records ∧
        handed q records ++ t.addon.queued q = s.addon.queued q) ∧
      ∀ l u, t.main.InDrain q → Step threading t l u → ¬ u.main.InDrain q →
        l = .handlerThrows ∨ ∃ records, u.log = s.log ++ records ∧
          handed q records = s.addon.queued q ∧ u.addon.queued q = []) ∧
    (∀ q locked trace label, s.main.activity = .lock q → Step threading s .main locked →
      trace 0 = locked → Execution (Step threading) trace label → DrainGoesOn q trace label →
      ∃ n records, (∀ k ≤ n, (trace k).main.InDrain q) ∧ label n = .main ∧
        (trace (n + 1)).main.activity = .afterLoop q ∧ (trace (n + 1)).owner q.mutex = none ∧
        (trace (n + 1)).log = s.log ++ records ∧ handed q records = s.addon.queued q ∧
        (trace (n + 1)).addon.queued q = []) ∧
    (s.main.activity = .user → (∀ q : Queue, s.owner q.mutex = none) →
      ∃ t, Runs (Step threading) OnlyUpdate s t ∧ t.main = s.main ∧
        ∀ q, handed q t.log = handed q s.log ++ s.addon.queued q ∧ t.addon.queued q = []) ∧
    (∀ t, Step threading s .handlerThrows t →
      t.log = s.log ∧ (∀ q, t.addon.queued q = s.addon.queued q) ∧
      ∃ q hs, s.main.handlers = q :: hs ∧
        t.main = { activity := .user, handlers := hs } ∧ t.owner q.mutex = none) ∧
    (∀ l t, Step threading s l t → l ≠ .main → ∀ q, handed q t.log = handed q s.log) := by
  -- what a drain has handed over since it locked
  have hdrained {q : Queue} {locked t : System T} (hlock : s.main.activity = .lock q)
      (hstep : Step threading s .main locked)
      (hrun : Runs (Step threading) (fun u _ => u.main.InDrain q) locked t) :
      ∃ records, t.log = s.log ++ records ∧
        handed q records ++ t.addon.queued q = s.addon.queued q := by
    obtain ⟨hlog, haddon, -⟩ := hstep.of_lock hlock
    obtain ⟨records, hrecords, hhanded⟩ :=
      handed_append_queued_of_drain (hstep.exclusive (exclusive_of_reaches h)) hrun
    exact ⟨records, hlog ▸ hrecords, haddon ▸ hhanded⟩
  refine ⟨handed_append_queued h, ?_, ?_, ?_, ?_, fun l t hstep hl => handed_of_ne_main hstep hl⟩
  · intro q locked t hlock hstep hrun
    obtain ⟨records, hrecords, hhanded⟩ := hdrained hlock hstep hrun
    refine ⟨⟨records, hrecords, hhanded⟩, fun l u ht hleave hu => ?_⟩
    obtain ⟨hlog', haddon', ⟨-, hempty⟩ | hthrows⟩ := leaves_drain hleave ht hu
    · rw [hempty, List.append_nil] at hhanded
      exact .inr ⟨records, hlog'.trans hrecords, hhanded, by rw [haddon', hempty]⟩
    · exact .inl hthrows
  · rintro q locked trace label hlock hstep rfl hexecution hgoes
    obtain ⟨-, -, hloop⟩ := hstep.of_lock hlock
    obtain ⟨n, hdrain, hl, hempty, hend, howner, hlog, haddon⟩ := drain_ends hexecution
      (hstep.exclusive (exclusive_of_reaches h)) hloop hgoes
    obtain ⟨records, hrecords, hhanded⟩ := hdrained hlock hstep
      (hexecution.runs (Nat.zero_le n) fun k _ hkn => hdrain k (Nat.le_of_lt hkn))
    rw [hempty, List.append_nil] at hhanded
    exact ⟨n, records, hdrain, hl, hend, howner, hlog.trans hrecords, hhanded, by
      rw [haddon, hempty]⟩
  · intro huser hfree
    refine ⟨_, update_run threading s huser hfree, rfl, fun q => ⟨?_, ?_⟩⟩
    · rw [handed_append, handed_map_update]
    · exact OfxBeatLink.queued_update s.addon q
  · intro t hthrows
    cases hthrows with
    | handlerThrows q hs huser hhandlers =>
        exact ⟨rfl, fun q => rfl, q, hs, hhandlers, rfl, Function.update_self ..⟩

/-- Two beats and a device are queued. The handler of the first beat throws out
of `update()`, and the next `update()` begins with the second beat: the drain of
the beats ends by itself while the library goes on, and the whole `update()`
hands over the rest. -/
theorem delivered_exactly_once_thrown :
    let threading : Threading Component := ⟨id, fun _ _ => True⟩
    let beat (d : Int) : Event := .beat { (convertBeat default) with deviceNumber := d }
    let found : Event := .deviceFound (convertDevice default)
    ∃ handling thrown locking : System Component, Reaches (Step threading) {} handling ∧
      Step threading handling .handlerThrows thrown ∧
      Step threading thrown (.call .update) locking ∧
      handed .beat thrown.log = [beat 1] ∧ thrown.addon.queued .beat = [beat 2] ∧
      thrown.addon.queued .deviceFound = [found] ∧
      (∃ t, Reaches (Step threading) thrown t ∧ handed .beat t.log = [beat 1, beat 2] ∧
        handed .deviceFound t.log = [found] ∧ pushed .beat t.log = [beat 1, beat 2]) ∧
      ∃ trace label n, Execution (Step threading) trace label ∧
        Step threading locking .main (trace 0) ∧ (trace n).main.activity = .lock .deviceFound ∧
        handed .beat (trace n).log = [beat 1, beat 2] := by
  intro threading beat found
  let arrives (d : Int) : Input :=
    .callback (.onBeat { (default : Beatlink.Beat) with deviceNumber := d })
  let queued : System Component :=
    [arrives 1, arrives 2, .callback (.onDeviceFound default)].foldl System.perform {}
  let calling : System Component := { queued with main := { activity := .lock .beat } }
  let draining (self : System Component) : System Component :=
    { self with
      main := { activity := .loop .beat }
      owner := Function.update self.owner (Queue.beat).mutex (some .main) }
  let handling : System Component :=
    { draining calling with
      addon := { queued.addon with beatQueue := queued.addon.beatQueue.tail }
      main := { activity := .user, handlers := [.beat] }
      log := queued.log ++ [.handed (beat 1)] }
  let thrown : System Component :=
    { handling with
      main := {}
      owner := Function.update (draining calling).owner (Queue.beat).mutex none }
  let locking : System Component := { thrown with main := { activity := .lock .beat } }
  let handlingSecond : System Component :=
    { draining locking with
      addon := { queued.addon with beatQueue := [] }
      main := { activity := .user, handlers := [.beat] }
      log := thrown.log ++ [.handed (beat 2)] }
  let drained : System Component :=
    { handlingSecond with
      main := { activity := .lock .deviceFound }
      owner := Function.update (draining locking).owner (Queue.beat).mutex none }
  -- the library announces over and over that there is no master
  let trace : ℕ → System Component
    | 0 => draining locking
    | 1 => handlingSecond
    | 2 => { handlingSecond with main := { activity := .loop .beat } }
    | n + 3 => { drained with
        log := drained.log ++ List.replicate n (.arrived (.masterChanged 0 none)) }
  let label : ℕ → Label Component
    | 0 => .main
    | 1 => .handlerReturns
    | 2 => .main
    | _ + 3 => .receiver .virtualCdj
  have hqueued : Reaches (Step threading) {} queued :=
    (performs_run threading (fun _ => .beatFinder) (fun _ => trivial) _).1
  have hcalling : Reaches (Step threading) {} calling :=
    hqueued.snoc trivial (.call queued .update rfl)
  have hhandling : Reaches (Step threading) {} handling :=
    (hcalling.snoc trivial (.lock calling .beat rfl rfl)).snoc trivial
      (.notify (draining calling) .beat (beat 1) _ rfl rfl)
  have hthrows : Step threading handling .handlerThrows thrown :=
    .handlerThrows handling .beat [] rfl rfl
  have hthrown : Reaches (Step threading) {} thrown := hhandling.snoc trivial hthrows
  have hcall : Step threading thrown (.call .update) locking := .call thrown .update rfl
  have hlocking : Reaches (Step threading) {} locking := hthrown.snoc trivial hcall
  have hlock : Step threading locking .main (draining locking) := .lock locking .beat rfl rfl
  have hexecution : Execution (Step threading) trace label
    | 0 => .notify (draining locking) .beat (beat 2) _ rfl rfl
    | 1 => .handlerReturns handlingSecond .beat [] rfl rfl
    | 2 => .unlock (trace 2) .beat rfl rfl
    | n + 3 => by
        have henter : Step threading (trace (n + 3)) (.receiver .virtualCdj) _ :=
          .enter (trace (n + 3)) .virtualCdj (.masterChanged 0 none) trivial ⟨rfl, rfl⟩
        have hreceivers : Function.update (trace (n + 3)).receivers Component.virtualCdj
            { todo := (Callback.masterChanged 0 none).sections } = (trace (n + 3)).receivers :=
          Function.update_eq_self _ _
        rw [hreceivers] at henter
        simpa [trace, List.replicate_succ'] using henter
  have hgoes : DrainGoesOn .beat trace label := by
    constructor
    · rintro (_ | _ | _ | n) - hloop
      · exact ⟨0, Nat.le_refl 0, fun r hr => by cases hr⟩
      · cases hloop
      · exact ⟨2, Nat.le_refl 2, fun r hr => by cases hr⟩
      · cases hloop
    · rintro (_ | _ | _ | n) - hmem
      · cases hmem
      · refine ⟨2, by decide, rfl, fun k hle hge => ?_⟩
        obtain rfl | rfl : k = 1 ∨ k = 2 := by omega
        · exact .inr List.mem_cons_self
        · exact .inl rfl
      · cases hmem
      · cases hmem
  obtain ⟨-, -, -, -, hkeeps, -⟩ := delivered_exactly_once threading hhandling
  obtain ⟨-, hqueues, -⟩ := hkeeps thrown hthrows
  obtain ⟨-, -, -, hupdate, -⟩ := delivered_exactly_once threading hthrown
  obtain ⟨t, hrun, -, hdelivered⟩ := hupdate rfl fun q => by cases q <;> rfl
  obtain ⟨hlaw, -⟩ := delivered_exactly_once threading (hthrown.trans hrun.reaches)
  obtain ⟨-, -, hends, -⟩ := delivered_exactly_once threading hlocking
  obtain ⟨n, records, -, -, hend, -, hlog, hrecords, -⟩ :=
    hends .beat _ trace label rfl hlock rfl hexecution hgoes
  have hbeats : handed .beat t.log = [beat 1, beat 2] := (hdelivered .beat).1
  refine ⟨handling, thrown, locking, hhandling, hthrows, hcall, rfl, hqueues .beat,
    hqueues .deviceFound, ⟨t, hrun.reaches, hbeats, (hdelivered .deviceFound).1, ?_⟩,
    trace, label, n + 1, hexecution, hlock, hend, ?_⟩
  · rw [← hlaw .beat, (hdelivered .beat).2, List.append_nil, hbeats]
  · rw [hlog, handed_append, hrecords]
    rfl

end DjLink
