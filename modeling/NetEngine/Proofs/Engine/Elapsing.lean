import NetEngine.Engine
import NetEngine.Proofs.Arp.Cache
import NetEngine.Proofs.Clock
import NetEngine.Proofs.Tcp.Upkeep

/-! # Time That Elapses

    An update lets as many seconds pass as have gone by since the last one, but no
    more than 256.

    * **Ends within**: all countdowns of an engine end within some seconds.  A
      second brings this bound down by one, and with nothing left to count another
      second changes nothing.  A countdown is an octet, so that 255 seconds are
      enough.
    * **Schedules**: the timer fires and the engine is updated, in any order.
    * **Every second**: what an engine has seen after an update is what has passed
      since the first update, second by second. -/

namespace NetEngine

namespace Engine

variable {L : Type} {e : Engine L} {k : Nat}

/-! ## Countdowns that end -/

/-- All countdowns end within `k` seconds.  A neighbour whose lifetime is over is forgotten with the
next second, so that at least one has to pass. -/
structure EndsWithin (k : Nat) (e : Engine L) : Prop where
  neighbours : ∀ i n, e.net.iface.cache.slots.get? i = some n → 0 < k ∧ n.ticks.toNat ≤ k
  waits : ∀ i t, e.tcp.pool.get? i = some t → t.timeout.toNat ≤ k
  ages : ∀ role, (e.tcp.conn role).state.isAging → (e.tcp.conn role).age.toNat ≤ k

/-- Octets end within 255 seconds. -/
theorem endsWithin_octet (e : Engine L) : EndsWithin 255 e where
  neighbours _ n _ := ⟨by decide, Nat.le_of_lt_succ n.ticks.toNat_lt⟩
  waits _ t _ := Nat.le_of_lt_succ t.timeout.toNat_lt
  ages role _ := Nat.le_of_lt_succ (e.tcp.conn role).age.toNat_lt

namespace EndsWithin

/-- Where nothing is left to count a second changes nothing. -/
theorem tick_eq_self (ends : EndsWithin 0 e) : e.tick = e := by
  have hzero {c : Countdown} (h : c.toNat ≤ 0) : Countdown.tick c = c := by
    apply UInt8.toNat_inj.mp
    rw [Countdown.toNat_tick]
    omega
  have hcache : e.net.iface.cache.tick = e.net.iface.cache := by
    unfold Arp.Cache.tick
    rw [Slots.update_eq_self]
    intro i n hn
    have := (ends.neighbours i n hn).1
    omega
  have hpool : e.tcp.pool.tick = e.tcp.pool := by
    apply Slots.update_eq_self
    intro i t ht
    rw [hzero (ends.waits i t ht)]
  have hconn (role : Tcp.Role) : (e.tcp.conn role).tick = e.tcp.conn role := by
    unfold Tcp.Connection.tick
    split
    · rename_i haging
      rw [hzero (ends.ages role haging)]
    · rfl
  have hiface : e.net.iface.tick = e.net.iface := by
    unfold Interface.tick
    rw [hcache]
  have htcp : e.tcp.tick = e.tcp := by
    unfold Tcp.Machine.tick
    rw [hpool, show e.tcp.client.tick = e.tcp.client from hconn .client,
      show e.tcp.server.tick = e.tcp.server from hconn .server]
  unfold Engine.tick
  rw [hiface, htcp]

/-- A second brings the bound down. -/
theorem tick (ends : EndsWithin (k + 1) e) : EndsWithin k e.tick where
  neighbours := by
    intro i n hn
    obtain ⟨m, hm, left, rfl⟩ := Arp.Cache.get?_tick_eq_some hn
    have hleft := Countdown.toNat_ne_zero left
    have hends := (ends.neighbours i m hm).2
    show 0 < k ∧ (Countdown.tick m.ticks).toNat ≤ k
    rw [Countdown.toNat_tick] at hleft ⊢
    omega
  waits := by
    intro i t ht
    replace ht : Slots.get? (Tcp.Pool.tick e.tcp.pool) i = some t := ht
    rw [Tcp.Pool.get?_tick] at ht
    obtain ⟨u, hu, rfl⟩ := Option.map_eq_some_iff.mp ht
    have hends := ends.waits i u hu
    show (Countdown.tick u.timeout).toNat ≤ k
    rw [Countdown.toNat_tick]
    omega
  ages := by
    intro role aging
    have hends := ends.ages role
    replace aging : (e.tcp.tick.conn role).state.isAging := aging
    show (e.tcp.tick.conn role).age.toNat ≤ k
    rw [Tcp.Machine.conn_tick] at aging ⊢
    unfold Tcp.Connection.tick at aging ⊢
    split
    · rename_i haging
      show (Countdown.tick (e.tcp.conn role).age).toNat ≤ k
      have := hends haging
      rw [Countdown.toNat_tick]
      omega
    · simp_all

/-- After the countdowns have ended time changes nothing. -/
theorem ticks_add (ends : EndsWithin k e) (n : Nat) : ticks (k + n) e = ticks k e := by
  induction k generalizing e with
  | zero =>
    rw [Nat.zero_add]
    induction n with
    | zero => rfl
    | succ n ih =>
      show ticks n e.tick = e
      rw [ends.tick_eq_self]
      exact ih
  | succ k ih =>
    rw [Nat.add_right_comm]
    exact ih ends.tick

end EndsWithin

/-- **The cap changes nothing**: 256 seconds are as good as any more. -/
theorem ticks_min (n : Nat) (e : Engine L) : ticks (min n 256) e = ticks n e := by
  have hend (k : Nat) (h : 255 ≤ k) : ticks k e = ticks 255 e := by
    obtain ⟨m, rfl⟩ := Nat.exists_eq_add_of_le h
    exact (endsWithin_octet e).ticks_add m
  by_cases h : n ≤ 256
  · rw [Nat.min_eq_left h]
  · rw [hend _ (by omega), hend n (by omega)]

/-! ## Seconds one after the other -/

theorem ticks_add (m n : Nat) (e : Engine L) : ticks (m + n) e = ticks n (ticks m e) := by
  induction m generalizing e with
  | zero => rw [Nat.zero_add]; rfl
  | succ m ih =>
    rw [Nat.add_right_comm]
    exact ih e.tick

/-- Time passes for the engine whatever second it has noted. -/
theorem ticks_lastSecond (n : Nat) (e : Engine L) (second : Option UInt32) :
    ticks n { e with lastSecond := second } = { ticks n e with lastSecond := second } := by
  induction n generalizing e with
  | zero => rfl
  | succ n ih => exact ih e.tick

/-- An update lets the difference of two counts of seconds pass. -/
theorem catchUp_of_lastSecond {last : UInt32} (noted : e.lastSecond = some last) (now : UInt32) :
    e.catchUp now = { ticks (now - last).toNat e with lastSecond := some now } := by
  unfold catchUp
  rw [noted]
  dsimp only
  rw [ticks_min]

/-! ## Schedules -/

/-- What happens to a clock and an engine. -/
inductive Occurrence where
  /-- The timer fires. -/
  | interrupt
  /-- The engine looks at the clock. -/
  | update
deriving DecidableEq

/-- An engine and the clock that it is updated by. -/
structure Timed (L : Type) where
  clock : Clock
  engine : Engine L

namespace Timed

/-- What comes of one occurrence. -/
def after (t : Timed L) : Occurrence → Timed L
  | .interrupt => { t with clock := t.clock.interrupt }
  | .update => { t with engine := t.engine.catchUp t.clock.seconds }

/-- What comes of occurrences one after the other. -/
def run (t : Timed L) (hs : List Occurrence) : Timed L := hs.foldl after t

end Timed

/-- Fewer than `2 ^ 32` seconds pass between two updates of a schedule that starts after `n`
interrupts. -/
def InTime (rate : UInt16) (n : Nat) (hs : List Occurrence) : Prop :=
  ∀ before stretch rest, hs = before ++ stretch ++ rest → .update ∉ stretch →
    secondsIn rate (n + (before ++ stretch).count .interrupt) -
      secondsIn rate (n + before.count .interrupt) < 2 ^ 32

/-- A schedule is in time if it has few interrupts. -/
theorem inTime_of_few {rate : UInt16} {hs : List Occurrence} (few : hs.count .interrupt < 2 ^ 32)
    (n : Nat) : InTime rate n hs := by
  rintro before stretch rest rfl -
  rw [List.count_append, List.count_append] at few
  have hle := secondsIn_add_le rate (n + before.count .interrupt) (stretch.count .interrupt)
  rw [List.count_append, ← Nat.add_assoc]
  omega

theorem InTime.of_append {rate : UInt16} {n : Nat} {hs rest : List Occurrence}
    (inTime : InTime rate n (hs ++ rest)) : InTime rate n hs := by
  rintro before stretch rest' rfl still
  exact inTime before stretch (rest' ++ rest) (by simp) still

/-! ## Every second -/

section Run

variable {rate : UInt16} {n : Nat} {e : Engine L}

theorem shows_run {t : Timed L} (shows : t.clock.Shows rate n) (hs : List Occurrence) :
    (t.run hs).clock.Shows rate (n + hs.count .interrupt) := by
  induction hs generalizing t n with
  | nil => exact shows
  | cons h hs ih =>
    cases h with
    | interrupt =>
      have hrun := ih (t := t.after .interrupt) shows.interrupt
      rwa [Nat.add_right_comm, Nat.add_assoc, ← List.count_cons_self] at hrun
    | update =>
      rw [List.count_cons_of_ne (by decide)]
      exact ih (t := t.after .update) shows

/-- The engine that has been updated after `m` interrupts, and first after `n`. -/
def caughtUp (rate : UInt16) (n : Nat) (e : Engine L) (m : Nat) : Engine L :=
  { ticks (secondsIn rate m - secondsIn rate n) e with
    lastSecond := some (UInt32.ofNat (secondsIn rate m)) }

/-- **An update counts the seconds since the one before**, whether their count has gone round or
not. -/
theorem catchUp_caughtUp {m m' : Nat} (order : n ≤ m) (later : m ≤ m')
    (inTime : secondsIn rate m' - secondsIn rate m < 2 ^ 32) :
    (caughtUp rate n e m).catchUp (UInt32.ofNat (secondsIn rate m')) = caughtUp rate n e m' := by
  have hfirst := secondsIn_mono rate order
  have hlater := secondsIn_mono rate later
  have hpassed : (UInt32.ofNat (secondsIn rate m') - UInt32.ofNat (secondsIn rate m)).toNat =
      secondsIn rate m' - secondsIn rate m := by
    rw [UInt32.toNat_sub]
    simp only [UInt32.toNat_ofNat']
    omega
  have hsum : secondsIn rate m - secondsIn rate n + (secondsIn rate m' - secondsIn rate m) =
      secondsIn rate m' - secondsIn rate n := by omega
  rw [catchUp_of_lastSecond rfl, hpassed]
  unfold caughtUp
  rw [ticks_lastSecond, ← ticks_add, hsum]

/-- An update after a stretch without any counts the seconds of the stretch. -/
theorem update_caughtUp {t : Timed L} (shows : t.clock.Shows rate n)
    {before stretch : List Occurrence}
    (engine : (t.run (before ++ stretch)).engine =
      caughtUp rate n e (n + before.count .interrupt))
    (short : secondsIn rate (n + (before ++ stretch).count .interrupt) -
      secondsIn rate (n + before.count .interrupt) < 2 ^ 32) :
    ((t.run (before ++ stretch)).after .update).engine =
      caughtUp rate n e (n + (before ++ stretch).count .interrupt) := by
  have hclock := shows_run shows (before ++ stretch)
  show (t.run (before ++ stretch)).engine.catchUp (t.run (before ++ stretch)).clock.seconds = _
  rw [engine, hclock.seconds_eq]
  refine catchUp_caughtUp (Nat.le_add_right _ _) ?_ short
  rw [List.count_append]
  omega

/-- **At every moment of a schedule** the engine is what the last update has made of it: the
schedule ends with a stretch without any. -/
theorem run_caughtUp {t : Timed L} (shows : t.clock.Shows rate n)
    (noted : t.engine.lastSecond = some t.clock.seconds) {hs : List Occurrence}
    (inTime : InTime rate n hs) :
    ∃ before stretch, hs = before ++ stretch ∧ .update ∉ stretch ∧
      (t.run hs).engine = caughtUp rate n t.engine (n + before.count .interrupt) := by
  induction hs using List.reverseRecOn with
  | nil =>
    refine ⟨[], [], rfl, List.not_mem_nil, ?_⟩
    unfold caughtUp
    rw [List.count_nil, Nat.add_zero, Nat.sub_self, ← shows.seconds_eq, ← noted]
    rfl
  | append_singleton hs h ih =>
    obtain ⟨before, stretch, rfl, still, hengine⟩ := ih inTime.of_append
    have hrun : t.run (before ++ stretch ++ [h]) = (t.run (before ++ stretch)).after h :=
      List.foldl_concat ..
    rw [hrun]
    cases h with
    | interrupt =>
      refine ⟨before, stretch ++ [.interrupt], by simp, ?_, hengine⟩
      simpa using still
    | update =>
      refine ⟨before ++ stretch ++ [.update], [], by simp, List.not_mem_nil, ?_⟩
      have hcount : (before ++ stretch ++ [Occurrence.update]).count .interrupt =
          (before ++ stretch).count .interrupt := by
        rw [List.count_append, List.count_singleton, if_neg (by decide), Nat.add_zero]
      rw [hcount]
      exact update_caughtUp shows hengine (inTime before stretch [.update] rfl still)

/-- **After an update an engine has seen every second since the first one.** -/
theorem run_update {t : Timed L} (shows : t.clock.Shows rate n)
    (noted : t.engine.lastSecond = some t.clock.seconds) {hs : List Occurrence}
    (inTime : InTime rate n hs) :
    ((t.run hs).after .update).engine =
      caughtUp rate n t.engine (n + hs.count .interrupt) := by
  obtain ⟨before, stretch, rfl, still, hengine⟩ := run_caughtUp shows noted inTime
  exact update_caughtUp shows hengine (inTime before stretch [] (by simp) still)

end Run

/-- What can be relied on with a timer of a given rate. -/
structure KeepsTime (L : Type) (rate : UInt16) : Prop where
  /-- Until the seconds go round the clock shows every interrupt. -/
  early : ∀ n < 2 ^ 32 * perSecond rate, let c := (Clock.ofRate rate).interrupts n
    c.seconds.toNat = n / perSecond rate ∧ c.subsecond = n % perSecond rate ∧ c.ticks = n
  /-- Each time that they have gone round it starts again. -/
  goesRound : ∀ n, let c := (Clock.ofRate rate).interrupts n
    c.seconds.toNat = n / perSecond rate % 2 ^ 32 ∧ c.subsecond = n % perSecond rate ∧
      c.ticks = n % (2 ^ 32 * perSecond rate)
  /-- After every update the engine is the one of the first update, the seconds since then later. -/
  counts : ∀ n (e : Engine L) hs, InTime rate n hs →
    let first := Timed.after ⟨(Clock.ofRate rate).interrupts n, e⟩ .update
    let last := (first.run hs).after .update
    let elapsed := (n + hs.count .interrupt) / perSecond rate - n / perSecond rate
    last.clock.Shows rate (n + hs.count .interrupt) ∧
      last.engine = { ticks elapsed first.engine with lastSecond := some last.clock.seconds }

/-- **No second is lost or counted twice.** -/
theorem keepsTime (L : Type) (rate : UInt16) : KeepsTime L rate := by
  have hshows := Clock.shows_interrupts rate
  constructor
  case early =>
    intro n early
    have hearly : secondsIn rate n < 2 ^ 32 :=
      (Nat.div_lt_iff_lt_mul (perSecond_pos rate)).mpr early
    refine ⟨?_, (hshows n).subsecond, (hshows n).ticks_of_lt hearly⟩
    exact (hshows n).seconds.trans (Nat.mod_eq_of_lt hearly)
  case goesRound => exact fun n => ⟨(hshows n).seconds, (hshows n).subsecond, (hshows n).ticks_eq⟩
  case counts =>
    intro n e hs inTime first last elapsed
    have hclock : last.clock.Shows rate (n + hs.count .interrupt) :=
      shows_run (t := first) (hshows n) hs
    refine ⟨hclock, ?_⟩
    rw [hclock.seconds_eq]
    exact run_update (t := first) (hshows n) rfl inTime

/-- The seconds go round while more than 256 of them pass at once. -/
theorem keepsTime_round :
    let hs : List Occurrence := .replicate 300 .interrupt ++ .update :: .replicate 5 .interrupt
    let first := Timed.after ⟨(Clock.ofRate 1).interrupts (2 ^ 32 - 10), start {} ()⟩ .update
    let last := (first.run hs).after .update
    InTime 1 (2 ^ 32 - 10) hs ∧ last.clock.seconds = 295 ∧
      last.engine = { ticks 305 first.engine with lastSecond := some 295 } := by
  intro hs first last
  have hcount : hs.count .interrupt = 305 := by
    unfold hs
    rw [List.count_append, List.count_replicate_self, List.count_cons_of_ne (by decide),
      List.count_replicate_self]
  have inTime : InTime 1 (2 ^ 32 - 10) hs := by
    apply inTime_of_few
    rw [hcount]
    decide
  obtain ⟨hclock, hengine⟩ := (keepsTime Unit 1).counts (2 ^ 32 - 10) (start {} ()) hs inTime
  rw [hcount] at hclock hengine
  have hseconds : last.clock.seconds = 295 := by
    apply UInt32.toNat_inj.mp
    rw [hclock.seconds]
    decide
  have helapsed : (2 ^ 32 - 10 + 305) / perSecond 1 - (2 ^ 32 - 10) / perSecond 1 = 305 := by decide
  refine ⟨inTime, hseconds, ?_⟩
  rw [helapsed] at hengine
  rw [← hseconds]
  exact hengine

end Engine

end NetEngine
