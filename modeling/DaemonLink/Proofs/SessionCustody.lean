import DaemonLink.Proofs.Custody

/-!
# Sessions keep custody

Each kind of step is put here as a release and a list of moves. For most there
is no move at all. A move between connections is one, an adoption is one, and
an attempt to connect is two or none, of which the answer and the next number
tell which. That is the whole of what the steps have to do with descriptors:
what follows about runs is proved of releases and moves.

That the moves are admitted is where the order of the operations matters. A
connection takes only after it has given up, so it is free. What it takes is
new or, as adoption is permitted, nobody's.
-/

namespace DaemonLink

namespace Session

/-! ## Steps as custody -/

/-- The connection that gives up its descriptor in a step: the one that is
closed, fails, is opened anew, is replaced or is destroyed. -/
def ended (s : Session) : Step → Option Nat
  | .create c _ | .destroy c | .adopt c _ | .connect c _ | .close c | .awaitReply c
  | .fail c _ => some c
  | .moveNew c source =>
      if c = source || (s.get? source).isNone then none else some c
  | .moveAssign c source =>
      if c = source || (s.get? c).isNone || (s.get? source).isNone then none else some c
  | _ => none

/-- Who holds what in a session, and the table of its machine. -/
def custody (s : Session) : Custody :=
  ⟨s.held, s.host.table⟩

/-- What a step does with descriptors after one has been given up. -/
def dealings (s : Session) (a : Step) : List Custody.Move :=
  match a with
  | .moveNew c source | .moveAssign c source =>
      if (s.ended a).isSome then [.pass c source] else []
  | .adopt c (some fd) => if (s.get? c).isSome then [.take c fd] else []
  | .connect c _ =>
      if (s.step a).answer = .outcome .done then [.make, .take c s.host.next]
      else if (s.step a).session.host.next = s.host.next then []
      else [.make, .discard s.host.next]
  | .happen .channelAppears => [.make]
  | _ => []

theorem held_eq {s : Session} {c : Nat} {x : Connection} (h : s.get? c = some x) :
    s.held c = x.descriptor := by
  simp only [held, h, Option.bind_some]

theorem held_eq_none {s : Session} {c : Nat} (h : s.get? c = none) : s.held c = none := by
  simp only [held, h, Option.bind_none]

theorem held_of_custody {s : Session} {k : Custody} (h : s.custody = k) (c : Nat) :
    s.held c = k.holds c := by
  rw [← h, custody]

theorem held_put (s : Session) (c n : Nat) (x : Connection) :
    (s.put c x).held n = if n = c then x.descriptor else s.held n := by
  simp only [held, get?_put]
  split <;> rfl

theorem held_drop (s : Session) (c n : Nat) :
    (s.drop c).held n = if n = c then none else s.held n := by
  simp only [held, get?_drop]
  split <;> rfl

theorem closeAt_table (s : Session) (c : Nat) :
    (s.closeAt c s.host).host.table = s.host.table.release (s.held c) := by
  cases h : s.get? c with
  | none =>
      simp only [closeAt, h, held_eq_none h]
      rfl
  | some x =>
      simp only [closeAt, h, held_eq h, Action.bind_apply, Action.pure_apply]
      exact x.close_table s.host

/-- A connection put in place of the one with its number, on a machine that has
changed meanwhile. -/
theorem custody_put (s : Session) (h : Host) (c : Nat) (x : Connection) :
    (({ s with host := h } : Session).put c x).custody =
      ⟨fun n => if n = c then x.descriptor else s.held n, h.table⟩ :=
  Custody.ext (funext fun n => held_put _ c n x) rfl

theorem custody_use {α : Type} {s : Session} {c : Nat} {x : Connection}
    (hx : s.get? c = some x) (f : Connection → Action α) (answer : α → Answer)
    (kept : α → Connection) :
    (s.perform (s.use c f answer kept)).session.custody =
      ⟨fun n => if n = c then (kept (f x s.host).value).descriptor else s.held n,
        (f x s.host).host.table⟩ := by
  rw [perform_use hx]
  exact custody_put s _ c _

theorem custody_operate {s : Session} {c : Nat} {x : Connection} (hx : s.get? c = some x)
    (f : Connection → Action (Outcome × Connection)) :
    (s.perform (s.operate c f)).session.custody =
      ⟨fun n => if n = c then (f x s.host).value.2.descriptor else s.held n,
        (f x s.host).host.table⟩ :=
  custody_use hx f (fun v => .outcome v.1) (fun v => v.2)

theorem custody_adjust {s : Session} {c : Nat} {x : Connection} (hx : s.get? c = some x)
    (f : Connection → Action Connection) :
    (s.perform (s.adjust c f)).session.custody =
      ⟨fun n => if n = c then (f x s.host).value.descriptor else s.held n,
        (f x s.host).host.table⟩ :=
  custody_use hx f (fun _ => .nothing) id

theorem operate_nobody {s : Session} {c : Nat} (hc : s.get? c = none)
    (f : Connection → Action (Outcome × Connection)) :
    s.perform (s.operate c f) = .still s .nothing :=
  perform_withConnection_nobody hc _

theorem adjust_nobody {s : Session} {c : Nat} (hc : s.get? c = none)
    (f : Connection → Action Connection) : s.perform (s.adjust c f) = .still s .nothing :=
  perform_withConnection_nobody hc _

theorem release_next_host (s : Session) (c : Nat) :
    (s.custody.release (some c)).table.next = s.host.next :=
  Custody.release_next _

theorem release_nobody {s : Session} {c : Nat} (hc : s.get? c = none) :
    s.custody.release (some c) = s.custody :=
  Custody.release_idle (held_eq_none hc)

theorem release_custody {s : Session} {c : Nat} {x : Connection} (hx : s.get? c = some x) :
    s.custody.release (some c) =
      ⟨fun n => if n = c then none else s.held n, s.host.table.release x.descriptor⟩ := by
  rw [← held_eq hx]
  rfl

/-! ## One step at a time -/

theorem custody_create (s : Session) (c : Nat) (options : ConnectionOptions) :
    (s.step (.create c options)).session.custody = s.custody.release (some c) := by
  rw [step_create, custody_put]
  exact Custody.ext rfl (closeAt_table s c)

theorem custody_destroy (s : Session) (c : Nat) :
    (s.step (.destroy c)).session.custody = s.custody.release (some c) := by
  rw [step_destroy]
  exact Custody.ext (funext fun n => held_drop _ c n) (closeAt_table s c)

theorem custody_moveNew {s : Session} {c source : Nat} {x : Connection}
    (hx : s.get? source = some x) :
    (s.step (.moveNew c source)).session.custody =
      if c = source then s.custody
      else (s.custody.release (some c)).after (.pass c source) := by
  have htable : ((s.put source x.emptied).closeAt c s.host).host.table =
      s.host.table.release ((s.put source x.emptied).held c) :=
    closeAt_table (s.put source x.emptied) c
  have hheld : ∀ n, (s.put source x.emptied).held n =
      if n = source then none else s.held n := fun n => held_put s source n x.emptied
  rw [step_moveNew hx, custody_put]
  rw [htable, hheld c]
  split
  · next heq =>
      -- Moved onto its own number, a connection is emptied, so that nothing is
      -- closed, and then put back.
      subst heq
      refine Custody.ext (funext fun n => ?_) rfl
      simp only [hheld]
      split
      · next hn => rw [hn]; exact (held_eq hx).symm
      · rfl
  · next hne =>
      refine Custody.ext (funext fun n => ?_) rfl
      simp only [hheld, Custody.after, Custody.release]
      by_cases hc : n = c
      · have hns : n ≠ source := by
          rw [hc]
          exact hne
        rw [if_pos hc, if_neg hns, if_pos hc, if_neg (Ne.symm hne)]
        exact (held_eq hx).symm
      · simp only [if_neg hc]
        rfl

theorem custody_moveAssign {s : Session} {c source : Nat} {x y : Connection}
    (hne : c ≠ source) (hy : s.get? c = some y) (hx : s.get? source = some x) :
    (s.step (.moveAssign c source)).session.custody =
      (s.custody.release (some c)).after (.pass c source) := by
  rw [release_custody hy, step_moveAssign hne hy hx]
  refine Custody.ext (funext fun n => ?_) (y.close_table s.host)
  simp only [custody, held_put, Custody.after, if_neg (Ne.symm hne)]
  split
  · rfl
  · split
    · exact (held_eq hx).symm
    · rfl

theorem custody_adopt {s : Session} {c : Nat} {x : Connection} (hx : s.get? c = some x)
    (fd : Option Nat) :
    (s.step (.adopt c fd)).session.custody =
      ⟨fun n => if n = c then fd else s.held n,
        (s.custody.release (some c)).table⟩ := by
  rw [release_custody hx]
  rw [show (s.step (.adopt c fd)).session.custody = _ from custody_adjust hx _,
    Connection.adopt_value, Connection.adopt_table]

/-- An operation that leaves its connection closed, and does nothing else to the
table, is a release. -/
theorem operate_releases {s : Session} {c : Nat}
    {f : Connection → Action (Outcome × Connection)}
    (hf : ∀ x, s.get? c = some x → (f x s.host).value.2.descriptor = none ∧
      (f x s.host).host.table = s.host.table.release x.descriptor) :
    (s.perform (s.operate c f)).session.custody = s.custody.release (some c) := by
  cases hx : s.get? c with
  | none => rw [operate_nobody hx, release_nobody hx]; rfl
  | some x =>
      obtain ⟨hvalue, htable⟩ := hf x hx
      rw [custody_operate hx, release_custody hx, hvalue, htable]

theorem custody_close (s : Session) (c : Nat) :
    (s.step (.close c)).session.custody = s.custody.release (some c) := by
  show (s.perform (s.adjust c (·.close))).session.custody = _
  cases hx : s.get? c with
  | none => rw [adjust_nobody hx, release_nobody hx]; rfl
  | some x =>
      rw [custody_adjust hx, release_custody hx, x.close_value, x.close_table]

theorem custody_fail (s : Session) (c : Nat) (f : Failure) :
    (s.step (.fail c f)).session.custody = s.custody.release (some c) := by
  refine operate_releases fun x hx => ⟨?_, x.fail_table f s.host⟩
  rw [x.fail_value]

theorem custody_awaitReply {s : Session} {c : Nat} (ha : s.Permits (.awaitReply c)) :
    (s.step (.awaitReply c)).session.custody = s.custody.release (some c) := by
  refine operate_releases fun x hx => ?_
  obtain ⟨f, hvalue, htable⟩ := Connection.awaitReply_fails (ha.reading hx)
  exact ⟨by rw [hvalue], htable⟩

/-- What connecting does with descriptors is what its answer says. -/
theorem custody_connect {s : Session} {c : Nat} {x : Connection} (hx : s.get? c = some x)
    (path : Bytes) :
    (s.step (.connect c path)).session.custody =
      (s.custody.release (some c)).afterAll (s.dealings (.connect c path)) := by
  have hstep : s.step (.connect c path) = s.perform (s.operate c (·.connect path)) := rfl
  have hsession := custody_operate hx (·.connect path)
  have hanswer := answer_operate hx (·.connect path)
  have hnext : (s.perform (s.operate c (·.connect path))).session.host.next =
      (x.connect path s.host).host.table.next := by
    rw [operate, perform_use hx]
    rfl
  have hfailed : ∀ f, Answer.outcome (.failed f) ≠ .outcome .done := by
    intro f h
    cases h
  rw [release_custody hx]
  simp only [dealings, hstep, hanswer, hnext, hsession]
  rcases x.connect_cases path s.host with
    ⟨f, hvalue, htable⟩ | ⟨f, hvalue, htable⟩ | ⟨hvalue, htable⟩
  · have hsame : (s.host.table.release x.descriptor).next = s.host.next :=
      DescriptorTable.release_next _ _
    rw [hvalue, htable, if_neg (hfailed f), if_pos hsame]
    rfl
  · have hmore : ((s.host.table.release x.descriptor).grow.close s.host.next).next =
        s.host.next + 1 := by
      show (s.host.table.release x.descriptor).next + 1 = _
      rw [DescriptorTable.release_next]
      rfl
    rw [hvalue, htable, if_neg (hfailed f), hmore, if_neg (Nat.succ_ne_self _)]
    rfl
  · rw [hvalue, htable, if_pos rfl]
    refine Custody.ext (funext fun n => ?_) rfl
    simp only [Custody.afterAll, Custody.after]
    split
    · rfl
    · rfl

/-- A connection put back with the descriptor it had. -/
theorem custody_same {s : Session} {c : Nat} {x : Connection} (hx : s.get? c = some x) :
    (⟨fun n => if n = c then x.descriptor else s.held n, s.host.table⟩ : Custody) =
      s.custody := by
  refine Custody.ext (funext fun n => ?_) rfl
  simp only
  split
  · next hn => rw [hn]; exact (held_eq hx).symm
  · rfl

theorem custody_execute {s : Session} {c : Nat} (hc : s.held c = none) (kind : Bytes) :
    (s.step (.execute c kind)).session.custody = s.custody := by
  show (s.perform (s.operate c (·.execute kind))).session.custody = _
  cases hx : s.get? c with
  | none => rw [operate_nobody hx]; rfl
  | some x =>
      have hclosed : x.descriptor = none := by rw [← held_eq hx, hc]
      rw [custody_operate hx, Connection.execute_closed hclosed]
      exact custody_same (x := x) hx

/-! ## Every step as a release and moves -/

theorem moveNew_moves (s : Session) (c source : Nat) :
    (s.step (.moveNew c source)).session.custody =
      (s.custody.release (s.ended (.moveNew c source))).afterAll
        (s.dealings (.moveNew c source)) := by
  cases hx : s.get? source with
  | none =>
      have hended : s.ended (.moveNew c source) = none := by simp [ended, hx]
      simp only [step_moveNew_nobody hx, dealings, hended]
      rfl
  | some x =>
      rw [custody_moveNew hx]
      by_cases hc : c = source
      · have hended : s.ended (.moveNew c source) = none := by simp [ended, hc]
        simp only [if_pos hc, dealings, hended]
        rfl
      · have hended : s.ended (.moveNew c source) = some c := by simp [ended, hc, hx]
        simp only [if_neg hc, dealings, hended]
        rfl

theorem moveAssign_moves (s : Session) (c source : Nat) :
    (s.step (.moveAssign c source)).session.custody =
      (s.custody.release (s.ended (.moveAssign c source))).afterAll
        (s.dealings (.moveAssign c source)) := by
  rcases s.step_moveAssign_cases c source with ⟨hnobody, hstill⟩ | ⟨hne, y, x, hy, hx⟩
  · have hended : s.ended (.moveAssign c source) = none := by
      rcases hnobody with h | h | h <;> simp [ended, h]
    simp only [hstill, dealings, hended]
    rfl
  · have hended : s.ended (.moveAssign c source) = some c := by simp [ended, hne, hx, hy]
    rw [custody_moveAssign hne hy hx]
    simp only [dealings, hended]
    rfl

theorem adopt_moves (s : Session) (c : Nat) (fd : Option Nat) :
    (s.step (.adopt c fd)).session.custody =
      (s.custody.release (some c)).afterAll (s.dealings (.adopt c fd)) := by
  cases hx : s.get? c with
  | none =>
      have hstep : s.step (.adopt c fd) = .still s .nothing := adjust_nobody hx _
      have hdealings : s.dealings (.adopt c fd) = [] := by
        cases fd <;> simp [dealings, hx]
      rw [hdealings, hstep, release_nobody hx]
      rfl
  | some x =>
      rw [custody_adopt hx]
      cases fd with
      | none => rfl
      | some fd =>
          simp only [dealings, hx, Option.isSome_some, if_true]
          refine Custody.ext (funext fun n => ?_) rfl
          simp only [Custody.afterAll, Custody.after, Custody.release]
          split
          · rfl
          · rfl

theorem connect_moves (s : Session) (c : Nat) (path : Bytes) :
    (s.step (.connect c path)).session.custody =
      (s.custody.release (some c)).afterAll (s.dealings (.connect c path)) := by
  cases hx : s.get? c with
  | none =>
      have hstep : s.step (.connect c path) = .still s .nothing := operate_nobody hx _
      have hdealings : s.dealings (.connect c path) = [] := by
        simp [dealings, hstep, Progress.still]
      rw [hdealings, hstep, release_nobody hx]
      rfl
  | some x => exact custody_connect hx path

theorem adjust_same {s : Session} {c : Nat} {f : Connection → Action Connection}
    (hf : ∀ x, (f x s.host).value.descriptor = x.descriptor ∧
      (f x s.host).host.table = s.host.table) :
    (s.perform (s.adjust c f)).session.custody = s.custody := by
  cases hx : s.get? c with
  | none => rw [adjust_nobody hx]; rfl
  | some x =>
      obtain ⟨hvalue, htable⟩ := hf x
      rw [custody_adjust hx, hvalue, htable]
      exact custody_same hx

theorem happen_moves (s : Session) (what : Happening) :
    (s.step (.happen what)).session.custody =
      s.custody.afterAll (s.dealings (.happen what)) := by
  have hsession : (s.step (.happen what)).session.custody = ⟨s.held,
      if what = .channelAppears then s.host.table.grow else s.host.table⟩ :=
    Custody.ext rfl (Host.table_after s.host what)
  rw [hsession]
  cases what <;> rfl

/-- Every permitted step is a release and then moves. -/
theorem custody_step {s : Session} {a : Step} (ha : s.Permits a) :
    (s.step a).session.custody =
      (s.custody.release (s.ended a)).afterAll (s.dealings a) := by
  cases a with
  | create c options => exact custody_create s c options
  | destroy c => exact custody_destroy s c
  | moveNew c source => exact moveNew_moves s c source
  | moveAssign c source => exact moveAssign_moves s c source
  | adopt c fd => exact adopt_moves s c fd
  | connect c path => exact connect_moves s c path
  | close c => exact custody_close s c
  | execute c kind => exact custody_execute ha kind
  | awaitReply c => exact custody_awaitReply ha
  | fail c f => exact custody_fail s c f
  | setOptions c options => exact adjust_same fun x => ⟨rfl, rfl⟩
  | setSink c sink => exact adjust_same fun x => ⟨rfl, rfl⟩
  | deliver c entry =>
      rw [step_deliver_session]
      rfl
  | happen what => exact happen_moves s what

/-! ## Admitted moves -/

/-- A descriptor that is made is new: nobody has held its number. -/
theorem unheld_next {s : Session} (hs : s.custody.Sound) (c : Nat) :
    s.held c ≠ some s.host.next := by
  intro h
  have hopen : s.custody.table.isOpen s.custody.table.next = true := hs.kept h
  rw [hs.table.next_not_open] at hopen
  cases hopen

/-- A descriptor that has just been made may be thrown away, and it may be
taken by the one who has given up what it held. -/
theorem admits_discard {s : Session} (hs : s.custody.Sound) (c : Nat) :
    ((s.custody.release (some c)).after .make).Admits (.discard s.host.next) := by
  have hopen : (s.custody.release (some c)).table.grow.isOpen s.host.next = true :=
    DescriptorTable.isOpen_grow.mpr (Or.inl (release_next_host s c).symm)
  refine ⟨hopen, fun n h => ?_⟩
  have hrelease : (s.custody.release (some c)).holds n = some s.host.next := h
  exact unheld_next hs n (Custody.holds_of_release hrelease).1

theorem admits_dealings {s : Session} (hs : s.custody.Sound) {a : Step} (ha : s.Permits a) :
    (s.custody.release (s.ended a)).AdmitsAll (s.dealings a) := by
  cases a with
  | moveNew c source | moveAssign c source =>
      simp only [dealings, ended]
      split
      · exact trivial
      · next h =>
          refine ⟨⟨Custody.release_holds c, fun hc => ?_⟩, trivial⟩
          simp [hc] at h
  | adopt c fd =>
      cases fd with
      | none => exact trivial
      | some fd =>
          obtain ⟨hopen, hunheld⟩ := ha
          simp only [dealings]
          split
          · refine ⟨⟨Custody.release_holds c, ?_, ?_⟩, trivial⟩
            · exact Custody.release_isOpen hopen fun d _ => hunheld d
            · exact fun n h => hunheld n (Custody.holds_of_release h).1
          · exact trivial
  | connect c path =>
      obtain ⟨hopen, hunheld⟩ := admits_discard hs c
      simp only [dealings]
      split
      · exact ⟨trivial, ⟨Custody.release_holds c, hopen, hunheld⟩, trivial⟩
      · split
        · exact trivial
        · exact ⟨trivial, ⟨hopen, hunheld⟩, trivial⟩
  | happen what => cases what <;> simp [dealings, Custody.AdmitsAll, Custody.Admits]
  | create | destroy | close | execute | awaitReply | fail | setOptions | setSink
  | deliver => exact trivial

theorem sound_step {s : Session} (hs : s.custody.Sound) {a : Step} (ha : s.Permits a) :
    (s.step a).session.custody.Sound := by
  rw [custody_step ha]
  exact (hs.release _).afterAll (admits_dealings hs ha)

theorem spent_step {s : Session} (hs : s.custody.Sound) {a : Step} (ha : s.Permits a)
    {fd : Nat} (h : s.custody.Spent fd) : (s.step a).session.custody.Spent fd := by
  rw [custody_step ha]
  exact (h.release _).afterAll (hs.release _) (admits_dealings hs ha)

/-- What is given up in a step is closed in it, and no move of the step touches
it. -/
theorem closing_step {s : Session} {a : Step} (hs : s.custody.Sound) (ha : s.Permits a)
    {c fd : Nat} (hended : s.ended a = some c) (hc : s.held c = some fd) :
    (s.step a).session.custody.Spent fd := by
  have hadmits := admits_dealings hs ha
  rw [custody_step ha]
  rw [hended] at hadmits ⊢
  exact (hs.release_spent hc).afterAll (hs.release _) hadmits

theorem sound_new {host : Host} (hhost : host.table.Consistent) :
    (new host).custody.Sound where
  table := hhost
  kept := nofun
  apart := nofun

theorem sound_run {host : Host} (hhost : host.table.Consistent) {steps : List Step}
    (hlegal : (new host).Legal steps) : ((new host).run steps).session.custody.Sound :=
  hlegal.preserves (P := fun s => s.custody.Sound) (fun _ _ hs ha => sound_step hs ha)
    (sound_new hhost)

end Session

end DaemonLink
