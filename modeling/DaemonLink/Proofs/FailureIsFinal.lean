import DaemonLink.Proofs.SessionCustody

/-!
# Failure is final

A connection keeps its state and its descriptor in two places, and its
operations change now the one and now the other. What ties them together is
that a connection at rest is idle or has failed, and that one with a descriptor
is idle. Each operation keeps this for the connection it works on, and moving a
connection takes both along.

So a failed connection has no descriptor. What it read from before has been
closed, its number is not handed out again, and nobody else has it: the stream
whose place was lost is never read on. The connection itself can come back only
by getting a descriptor, and there are three ways to get one. As long as none
of them is taken, a request comes to the same failure without a look at the
machine, however often and in whatever order the rest is done.
-/

namespace DaemonLink

/-- The state and the descriptor of a connection agree, between two operations
on it. -/
structure Connection.Coherent (x : Connection) : Prop where
  resting : x.state = .idle ∨ x.state = .failed
  idle_of_open : x.isOpen = true → x.state = .idle

namespace Connection

variable {x : Connection}

theorem Coherent.closed_of_failed (hx : x.Coherent) (h : x.state = .failed) :
    x.isOpen = false := by
  cases hopen : x.isOpen with
  | false => rfl
  | true =>
      have hidle := hx.idle_of_open hopen
      rw [h] at hidle
      cases hidle

theorem coherent_of_idle (h : x.state = .idle) : x.Coherent :=
  ⟨Or.inl h, fun _ => h⟩

theorem coherent_of_failed (h : x.state = .failed) (hclosed : x.descriptor = none) :
    x.Coherent := by
  refine ⟨Or.inr h, fun hopen => ?_⟩
  rw [isOpen, hclosed] at hopen
  cases hopen

theorem Coherent.without (hx : x.Coherent) : { x with descriptor := none }.Coherent :=
  ⟨hx.resting, nofun⟩

theorem Coherent.close (hx : x.Coherent) (h : Host) : (x.close h).value.Coherent := by
  rw [close_value]
  exact hx.without

theorem coherent_adopt (x : Connection) (fd : Option Nat) (h : Host) :
    (x.adopt fd h).value.Coherent := by
  rw [adopt_value]
  exact coherent_of_idle rfl

theorem Coherent.connect (hx : x.Coherent) (path : Bytes) (h : Host) :
    (x.connect path h).value.2.Coherent := by
  rcases x.connect_cases path h with ⟨f, hvalue, -⟩ | ⟨f, hvalue, -⟩ | ⟨hvalue, -⟩
  · rw [hvalue]; exact hx.without
  · rw [hvalue]; exact hx.without
  · rw [hvalue]; exact coherent_of_idle rfl

theorem coherent_fail (x : Connection) (f : Failure) (h : Host) :
    (x.fail f h).value.2.Coherent := by
  rw [fail_value]
  exact coherent_of_failed rfl rfl

theorem coherent_execute (x : Connection) (kind : Bytes) (h : Host) :
    (x.execute kind h).value.2.Coherent := by
  rcases x.execute_value kind h with ⟨hvalue, hclosed⟩ | hvalue
  · rw [hvalue]; exact coherent_of_failed rfl hclosed
  · rw [hvalue]; exact coherent_of_idle rfl

theorem Coherent.awaitReply (hx : x.Coherent) (h : Host) :
    (x.awaitReply h).value.2.Coherent := by
  rcases x.awaitReply_cases h with ⟨payload, -, -, hvalue⟩ | ⟨f, hvalue, -⟩
  · rw [hvalue]; exact hx
  · rw [hvalue]; exact coherent_of_failed rfl rfl

end Connection

namespace Session

/-! ## Every connection of a session -/

/-- Something is so of every connection. -/
def All (s : Session) (P : Connection → Prop) : Prop :=
  ∀ c x, s.get? c = some x → P x

variable {s : Session} {P : Connection → Prop}

theorem all_new (host : Host) : (new host).All P :=
  nofun

theorem All.put (hs : s.All P) {x : Connection} (hx : P x) (c : Nat) :
    (s.put c x).All P := by
  intro n y hy
  rw [get?_put] at hy
  split at hy
  · cases hy; exact hx
  · exact hs n y hy

theorem All.drop (hs : s.All P) (c : Nat) : (s.drop c).All P := by
  intro n y hy
  rw [get?_drop] at hy
  split at hy
  · cases hy
  · exact hs n y hy

theorem All.changed (hs : s.All P) {t : Session} {c : Nat} {g : Connection → Connection}
    (ht : ∀ n, t.get? n = if n = c then (s.get? c).map g else s.get? n)
    (hg : ∀ x, P x → P (g x)) : t.All P := by
  intro n y hy
  rw [ht] at hy
  split at hy
  · obtain ⟨x, hx, rfl⟩ := Option.map_eq_some_iff.mp hy
    exact hg x (hs c x hx)
  · exact hs n y hy

theorem All.operate (hs : s.All P) {c : Nat}
    {f : Connection → Action (Outcome × Connection)}
    (hf : ∀ x, P x → P (f x s.host).value.2) : (s.perform (s.operate c f)).session.All P :=
  hs.changed (fun n => get?_operate s c n f) hf

theorem All.adjust (hs : s.All P) {c : Nat} {f : Connection → Action Connection}
    (hf : ∀ x, P x → P (f x s.host).value) : (s.perform (s.adjust c f)).session.All P :=
  hs.changed (fun n => get?_adjust s c n f) hf

theorem coherent_step (hs : s.All Connection.Coherent) (a : Step) :
    (s.step a).session.All Connection.Coherent := by
  cases a with
  | create c options =>
      rw [step_create]
      exact All.put (s := { s with host := _ }) hs (Connection.coherent_of_idle rfl) c
  | destroy c =>
      rw [step_destroy]
      exact All.drop (s := { s with host := _ }) hs c
  | moveNew c source =>
      cases hx : s.get? source with
      | none =>
          rw [step_moveNew_nobody hx]
          exact hs
      | some x =>
          have hemptied := hs.put (x := x.emptied) (Connection.coherent_of_idle rfl) source
          rw [step_moveNew hx]
          exact All.put (s := { s.put source x.emptied with host := _ }) hemptied
            (hs source x hx) c
  | moveAssign c source =>
      rcases s.step_moveAssign_cases c source with ⟨-, hstill⟩ | ⟨hne, y, x, hy, hx⟩
      · rw [hstill]
        exact hs
      · have hput := All.put (s := { s with host := (y.close s.host).host }) hs (hs source x hx) c
        rw [step_moveAssign hne hy hx]
        exact hput.put (x := x.emptied) (Connection.coherent_of_idle rfl) source
  | adopt c fd => exact hs.adjust fun x _ => x.coherent_adopt fd s.host
  | connect c path => exact hs.operate fun x hx => hx.connect path s.host
  | close c => exact hs.adjust fun x hx => hx.close s.host
  | execute c kind => exact hs.operate fun x _ => x.coherent_execute kind s.host
  | awaitReply c => exact hs.operate fun x hx => hx.awaitReply s.host
  | fail c f => exact hs.operate fun x _ => x.coherent_fail f s.host
  | setOptions c options =>
      exact hs.adjust (f := fun x => pure { x with options := options })
        fun x hx => ⟨hx.resting, hx.idle_of_open⟩
  | setSink c sink =>
      exact hs.adjust (f := fun x => pure { x with sink := sink })
        fun x hx => ⟨hx.resting, hx.idle_of_open⟩
  | deliver c entry =>
      rw [step_deliver_session]
      exact hs
  | happen what => exact hs

/-! ## What is closed stays closed -/

/-- A step that gives a connection a descriptor. -/
def Reopens (s : Session) (a : Step) (c : Nat) : Prop :=
  match a with
  | .adopt d fd => d = c ∧ fd ≠ none
  | .connect d _ => d = c ∧ (s.step a).answer = .outcome .done
  | .moveNew d source | .moveAssign d source => d = c ∧ s.held source ≠ none
  | _ => False

/-- No step of a run gives the connection a descriptor. -/
def NeverReopens (s : Session) (c : Nat) : List Step → Prop
  | [] => True
  | a :: rest => ¬ s.Reopens a c ∧ (s.step a).session.NeverReopens c rest

/-- A step in which a connection reads from its descriptor, or goes on to. -/
def ReadsFrom (s : Session) (a : Step) (fd : Nat) : Prop :=
  ∃ c, (a = .awaitReply c ∨ ∃ kind, a = .execute c kind) ∧ s.held c = some fd

theorem held_changed {c d : Nat} (hc : s.held c = none) {t : Session}
    {g : Connection → Connection}
    (ht : ∀ n, t.get? n = if n = d then (s.get? d).map g else s.get? n)
    (hg : d = c → ∀ x, s.get? d = some x → x.descriptor = none →
      (g x).descriptor = none) : t.held c = none := by
  rw [held, ht]
  split
  · next hd =>
      cases hx : s.get? d with
      | none => rfl
      | some x =>
          rw [hd, held_eq hx] at hc
          exact hg hd.symm x hx hc
  · exact hc

theorem held_of_release {c : Nat} {who : Option Nat} (hc : s.held c = none) {t : Session}
    (ht : t.custody = s.custody.release who) : t.held c = none := by
  rw [held_of_custody ht]
  exact Custody.release_holds_none (k := s.custody) hc who

theorem held_of_pass {c d source : Nat} (hc : s.held c = none)
    (hsource : ¬(d = c ∧ s.held source ≠ none)) {t : Session}
    (ht : t.custody = (s.custody.release (some d)).after (.pass d source)) :
    t.held c = none := by
  rw [held_of_custody ht]
  simp only [Custody.after]
  split
  · rfl
  · split
    · next hd =>
        have hnone : s.held source = none := by
          by_cases hnone : s.held source = none
          · exact hnone
          · exact absurd ⟨hd.symm, hnone⟩ hsource
        exact Custody.release_holds_none (k := s.custody) hnone _
    · exact Custody.release_holds_none (k := s.custody) hc _

/-- A connection that is not open is opened by nothing but the steps listed. -/
theorem held_none_step {a : Step} {c : Nat} (hc : s.held c = none) (ha : ¬ s.Reopens a c) :
    (s.step a).session.held c = none := by
  cases a with
  | create d options => exact held_of_release hc (custody_create s d options)
  | destroy d => exact held_of_release hc (custody_destroy s d)
  | moveNew d source =>
      cases hx : s.get? source with
      | none =>
          rw [step_moveNew_nobody hx]
          exact hc
      | some x =>
          have hcustody := custody_moveNew (c := d) hx
          split at hcustody
          · rw [held_of_custody hcustody]
            exact hc
          · exact held_of_pass hc ha hcustody
  | moveAssign d source =>
      rcases s.step_moveAssign_cases d source with ⟨-, hstill⟩ | ⟨hne, y, x, hy, hx⟩
      · rw [hstill]
        exact hc
      · exact held_of_pass hc ha (custody_moveAssign hne hy hx)
  | adopt d fd =>
      refine held_changed hc (fun n => get?_adjust s d n _) fun hd x _ _ => ?_
      rw [x.adopt_value]
      cases fd with
      | none => rfl
      | some fd => exact absurd ⟨hd, Option.some_ne_none fd⟩ ha
  | connect d path =>
      refine held_changed hc (fun n => get?_operate s d n _) fun hd x hx _ => ?_
      rcases x.connect_cases path s.host with
        ⟨f, hvalue, -⟩ | ⟨f, hvalue, -⟩ | ⟨hvalue, -⟩
      · rw [hvalue]
      · rw [hvalue]
      · have hdone : (s.step (.connect d path)).answer = .outcome .done := by
          rw [show (s.step (.connect d path)).answer = _ from answer_operate hx (·.connect path),
            hvalue]
        exact absurd ⟨hd, hdone⟩ ha
  | close d => exact held_of_release hc (custody_close s d)
  | execute d kind =>
      refine held_changed hc (fun n => get?_operate s d n _) fun _ x _ hx => ?_
      rcases x.execute_value kind s.host with ⟨hvalue, -⟩ | hvalue
      · rw [hvalue]; exact hx
      · rw [hvalue]; exact hx
  | awaitReply d =>
      refine held_changed hc (fun n => get?_operate s d n _) fun _ x _ hx => ?_
      rcases x.awaitReply_cases s.host with ⟨payload, -, -, hvalue⟩ | ⟨f, hvalue, -⟩
      · rw [hvalue]; exact hx
      · rw [hvalue]
  | fail d f => exact held_of_release hc (custody_fail s d f)
  | setOptions d options | setSink d sink =>
      exact held_changed hc (fun n => get?_adjust s d n _) fun _ x _ hx => hx
  | deliver d entry =>
      rw [step_deliver_session]
      exact hc
  | happen what => exact hc

theorem held_none_run {c : Nat} {later : List Step} (hc : s.held c = none)
    (hnever : s.NeverReopens c later) : (s.run later).session.held c = none := by
  induction later generalizing s with
  | nil => exact hc
  | cons a rest ih => exact ih (held_none_step hc hnever.1) hnever.2

/-- A request over a connection that is not open has one outcome, and all it
changes is that the connection has failed. -/
theorem step_execute_closed {c : Nat} {x : Connection} (hx : s.get? c = some x)
    (hc : s.held c = none) (kind : Bytes) :
    s.step (.execute c kind) =
      ⟨.outcome (.failed Connection.notConnected),
        s.put c { x with descriptor := none, state := .failed },
        [Connection.abortedNote Connection.notConnected]⟩ := by
  have hclosed : x.descriptor = none := by rw [← held_eq hx, hc]
  have hstep : s.step (.execute c kind) = s.perform (s.operate c (·.execute kind)) := rfl
  rw [hstep, operate, perform_use hx, Connection.execute_closed hclosed]
  simp only [hclosed]

theorem step_awaitReply_failed {c : Nat} {x : Connection} (hx : s.get? c = some x)
    (ha : s.Permits (.awaitReply c)) :
    (∃ f, (s.step (.awaitReply c)).answer = .outcome (.failed f)) ∧
    (s.step (.awaitReply c)).session.get? c =
      some { x with descriptor := none, state := .failed } := by
  obtain ⟨f, hvalue, -⟩ := Connection.awaitReply_fails (ha.reading hx)
  have hanswer := answer_operate hx (·.awaitReply)
  have hget := get?_operate s c c (·.awaitReply)
  rw [hvalue] at hanswer
  rw [if_pos rfl, hx, Option.map_some, hvalue] at hget
  exact ⟨⟨f, hanswer⟩, hget⟩

/-- Nobody reads from a descriptor that has been closed. -/
theorem spent_not_read {fd : Nat} (hs : s.custody.Sound) (h : s.custody.Spent fd)
    {later before after : List Step} {a : Step} (hlegal : s.Legal later)
    (hlater : later = before ++ a :: after) : ¬ (s.run before).session.ReadsFrom a fd := by
  subst hlater
  obtain ⟨hbefore, -⟩ := hlegal.split
  have hspent := hbefore.preserves (P := fun s => s.custody.Sound ∧ s.custody.Spent fd)
    (fun _ _ h ha => ⟨sound_step h.1 ha, spent_step h.1 ha h.2⟩) ⟨hs, h⟩
  rintro ⟨c, -, hheld⟩
  exact hspent.2.unheld c hheld

/-- After every run, connections are at rest and coherent. A descriptor over
which a frame could not be read is never read from again. And a connection that
is not open stays so until it is given a descriptor, and refuses every request. -/
theorem failure_is_final {host : Host} (hhost : host.table.Consistent) {steps : List Step}
    (hlegal : (new host).Legal steps) :
    let s := ((new host).run steps).session
    s.All (fun x => x.Coherent ∧ (x.state = .failed → x.isOpen = false)) ∧
    (∀ c x fd, s.get? c = some x → x.descriptor = some fd → s.Permits (.awaitReply c) →
      let failed := (s.step (.awaitReply c)).session
      (∃ f, (s.step (.awaitReply c)).answer = .outcome (.failed f)) ∧
      failed.get? c = some { x with descriptor := none, state := .failed } ∧
      ∀ later, failed.Legal later → ∀ before a after, later = before ++ a :: after →
        ¬ (failed.run before).session.ReadsFrom a fd) ∧
    ∀ c later, s.held c = none → s.NeverReopens c later →
      let t := (s.run later).session
      t.held c = none ∧
      ∀ kind x, t.get? c = some x →
        t.step (.execute c kind) =
          ⟨.outcome (.failed
              ⟨.frameIo, text "not-connected", text "connection is not open"⟩),
            t.put c { x with descriptor := none, state := .failed },
            [Connection.abortedNote Connection.notConnected]⟩ := by
  have hsound := sound_run hhost hlegal
  refine ⟨?_, ?_, ?_⟩
  · have hcoherent := hlegal.preserves (P := fun s => s.All Connection.Coherent)
      (fun _ a hs _ => coherent_step hs a) (all_new host)
    exact fun c x hx => ⟨hcoherent c x hx, (hcoherent c x hx).closed_of_failed⟩
  · intro c x fd hx hfd ha
    obtain ⟨hanswer, hget⟩ := step_awaitReply_failed hx ha
    rw [← held_eq hx] at hfd
    have hspent : (_ : Session).custody.Spent fd := closing_step hsound ha rfl hfd
    refine ⟨hanswer, hget, fun later hlater before a after => ?_⟩
    exact spent_not_read (sound_step hsound ha) hspent hlater
  · intro c later hc hnever
    have hclosed := held_none_run hc hnever
    exact ⟨hclosed, fun kind x hx => step_execute_closed hx hclosed kind⟩

/-- The peer hangs up before it has sent anything. -/
theorem failure_is_final_after_hang_up :
    let host := Host.new .bare FileTree.root
    let steps : List Step := [.happen .channelAppears, .create 0 {}, .adopt 0 (some 3),
      .happen (.peerActs 0 .close)]
    let s := ((new host).run steps).session
    host.table.Consistent ∧ (new host).Legal steps ∧ s.Permits (.awaitReply 0) ∧
      (s.step (.awaitReply 0)).session.get? 0 = some ⟨none, {}, .logger, .failed⟩ := by
  intro host steps s
  have hlegal : (new host).Legal steps :=
    ⟨trivial, trivial, ⟨by decide, unheld_of_connections (by decide)⟩, trivial, trivial⟩
  have hstreams : Host.Streams 3 s.host [] .closed :=
    ⟨rfl, nofun, 0, _, rfl, rfl, rfl, rfl⟩
  have hopen : s.get? 0 = some ⟨some 3, {}, .logger, .idle⟩ := by decide
  have hpermits : s.Permits (.awaitReply 0) := by
    intro x hx _ payload hread
    rw [hopen] at hx
    cases hx
    have hconveys : (Host.receiver (some 3)).Conveys (FrameLimits.timeout {})
        (Host.Streams 3) := Host.conveys 0 3
    obtain ⟨s', hshort, -⟩ :=
      readFrame_header_short hconveys hstreams nofun (by decide)
    rw [hshort] at hread
    cases hread
  have hfinal := failure_is_final (Host.table_new _ _) hlegal
  exact ⟨Host.table_new _ _, hlegal, hpermits, (hfinal.2.1 0 _ 3 hopen rfl hpermits).2.1⟩

end Session

end DaemonLink
