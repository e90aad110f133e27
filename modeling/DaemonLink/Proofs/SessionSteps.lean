import DaemonLink.Connection.Session
import DaemonLink.Proofs.DescriptorTable

/-!
# What a step does to one connection

Everything that is proved of runs goes back to what the six operations of a
connection do, and of each it is enough to know two things: what becomes of the
connection, and what becomes of the table of descriptors. Both are said here
once, and nothing later opens the operations again.

Giving up a descriptor is always the first thing done with it, whatever
follows, so the table after each operation starts with the same release.

A step is permitted if it is one this library answers for by itself. What is
excluded is the adoption of a descriptor that is not there to be adopted, and
an exchange that comes to a document: there the work goes on with the readers
and writers of documents.
-/

namespace DaemonLink

namespace DescriptorTable

/-- The table after what was held, if anything, has been closed. -/
def release (t : DescriptorTable) : Option Nat → DescriptorTable
  | none => t
  | some fd => t.close fd

@[simp] theorem release_next (t : DescriptorTable) (held : Option Nat) :
    (t.release held).next = t.next := by
  cases held <;> rfl

end DescriptorTable

/-! ## Reading without a descriptor -/

theorem readInto_barren {σ : Type} {r : Receiver σ}
    (hr : ∀ w s data, (r.receive w s).1 ≠ .ok data) (timeout : Int) (total : Nat)
    {w : Window} (hroom : 0 < w.room) (s : σ) :
    ∃ b, (readInto r timeout total w s).stop = some b := by
  rw [readInto, if_neg (by omega)]
  split
  · exact ⟨_, rfl⟩
  · exact ⟨_, rfl⟩
  · next s₁ _ =>
      split
      · exact ⟨_, rfl⟩
      · exact ⟨_, rfl⟩
      · next h =>
          refine absurd ?_ (hr w s₁ [])
          rw [h]
      · next b more _ h =>
          refine absurd ?_ (hr w s₁ (b :: more))
          rw [h]

/-- From a stream that never gives bytes no frame is read. -/
theorem readFrame_barren {σ : Type} {r : Receiver σ}
    (hr : ∀ w s data, (r.receive w s).1 ≠ .ok data) (limits : FrameLimits) (s : σ)
    (payload : Bytes) : (readFrame r limits s).1 ≠ .ok payload := by
  obtain ⟨b, hb⟩ := readInto_barren hr limits.timeout Header.size
    (w := .whole Header.size) (by decide) s
  simp only [readFrame, readExact, hb]
  intro h
  cases h

theorem Paced.receive_barren {σ ε : Type} {r : Receiver σ}
    (hr : ∀ w s data, (r.receive w s).1 ≠ .ok data) (perform : ε → σ → Option ε × σ)
    (blocks : σ → Bool) (w : Window) (data : Bytes) :
    ∀ (coming : List (Nat × ε)) (s : σ),
      (Paced.receive r perform blocks w s coming).1 ≠ .ok data := by
  intro coming
  induction coming with
  | nil => exact fun s => hr w s data
  | cons event later ih =>
      obtain ⟨delay, event⟩ := event
      intro s
      have hfirst := hr w s data
      rw [Paced.receive]
      split
      · split
        · split
          · exact ih _
          · exact hr w _ data
        · intro h
          cases h
      · next h =>
          rw [h] at hfirst
          exact hfirst

/-- Without a descriptor there is nothing to receive. -/
theorem readFrame_without_descriptor (limits : FrameLimits) (h : Host) (payload : Bytes) :
    (readFrame (Host.receiver none) limits h).1 ≠ .ok payload :=
  readFrame_barren
    (fun w g data => Paced.receive_barren (r := Host.stillReceiver none)
      (fun _ _ _ => nofun) Host.perform (·.blocks none) w data g.coming g)
    limits h payload

/-! ## The operations -/

namespace Connection

theorem close_value (x : Connection) (h : Host) :
    (x.close h).value = { x with descriptor := none } := by
  obtain ⟨descriptor, options, sink, state⟩ := x
  cases descriptor <;> rfl

theorem close_table (x : Connection) (h : Host) :
    (x.close h).host.table = h.table.release x.descriptor := by
  obtain ⟨descriptor, options, sink, state⟩ := x
  cases descriptor with
  | none => rfl
  | some fd => exact Host.table_close h fd

theorem adopt_value (x : Connection) (fd : Option Nat) (h : Host) :
    (x.adopt fd h).value = { x with descriptor := fd, state := .idle } := by
  simp only [adopt, Action.bind_apply, Action.pure_apply, close_value]

theorem adopt_table (x : Connection) (fd : Option Nat) (h : Host) :
    (x.adopt fd h).host.table = h.table.release x.descriptor := by
  simp only [adopt, Action.bind_apply, Action.pure_apply, close_table]

theorem fail_value (x : Connection) (f : Failure) (h : Host) :
    (x.fail f h).value = (.failed f, { x with descriptor := none, state := .failed }) := by
  simp only [fail, Action.bind_apply, Action.pure_apply, close_value]

theorem fail_table (x : Connection) (f : Failure) (h : Host) :
    (x.fail f h).host.table = h.table.release x.descriptor := by
  simp only [fail, Action.bind_apply, Action.tell_apply, Action.pure_apply, close_table]

/-- An attempt to connect ends before there is a socket, or with the socket
closed again, or with a connection that owns it. -/
theorem connect_cases (x : Connection) (path : Bytes) (h : Host) :
    (∃ f, (x.connect path h).value = (.failed f, { x with descriptor := none }) ∧
      (x.connect path h).host.table = h.table.release x.descriptor) ∨
    (∃ f, (x.connect path h).value = (.failed f, { x with descriptor := none }) ∧
      (x.connect path h).host.table =
        (h.table.release x.descriptor).grow.close h.next) ∨
    ((x.connect path h).value =
        (.done, { x with descriptor := some h.next, state := .idle }) ∧
      (x.connect path h).host.table = (h.table.release x.descriptor).grow) := by
  have htable := close_table x h
  have hnext : (x.close h).host.next = h.next := by
    show (x.close h).host.table.next = _
    rw [htable, DescriptorTable.release_next]
    rfl
  simp only [connect, Action.bind_apply, close_value]
  cases Address.ofPath? path with
  | none => exact Or.inl ⟨_, rfl, htable⟩
  | some address =>
      simp only [Action.bind_apply, Action.openSocket_apply]
      cases ho : (x.close h).host.openSocket with
      | mk opened h₁ =>
      cases opened with
      | error e =>
          have hstill := Host.table_openSocket_error ho
          subst hstill
          exact Or.inl ⟨_, rfl, htable⟩
      | ok fd =>
          obtain ⟨hfd, hgrown⟩ := Host.table_openSocket ho
          rw [hnext] at hfd
          rw [htable] at hgrown
          have hconnected := Host.table_connect h₁ fd address
          cases hc : h₁.connect fd address with
          | mk answer h₂ =>
          rw [hc, hgrown] at hconnected
          subst hfd
          simp only [Action.bind_apply, Action.connect_apply, hc]
          right
          cases answer with
          | error e =>
              left
              have hclosed := Host.table_close h₂ h.next
              rw [hconnected] at hclosed
              exact ⟨_, rfl, hclosed⟩
          | ok => exact Or.inr ⟨rfl, hconnected⟩

/-- An attempt that fails leaves nothing open that was not open before it. -/
theorem isOpen_after_failed_connect {x : Connection} {path : Bytes} {h : Host}
    (hfailed : (x.connect path h).value.1 ≠ .done) {fd : Nat}
    (hopen : (x.connect path h).host.isOpen fd = true) : (x.close h).host.isOpen fd = true := by
  have hisOpen : (x.connect path h).host.table.isOpen fd = true := hopen
  have hnext : h.next = (h.table.release x.descriptor).next :=
    (DescriptorTable.release_next h.table x.descriptor).symm
  show (x.close h).host.table.isOpen fd = true
  rw [close_table]
  rcases x.connect_cases path h with ⟨f, -, htable⟩ | ⟨f, -, htable⟩ | ⟨hdone, -⟩
  · rw [htable] at hisOpen
    exact hisOpen
  · rw [htable, hnext] at hisOpen
    exact DescriptorTable.isOpen_of_close_grow hisOpen
  · rw [hdone] at hfailed
    exact absurd rfl hfailed

/-- A request over a connection that is not open fails without a look at the
machine. -/
theorem execute_closed {x : Connection} (hx : x.descriptor = none) (kind : Bytes)
    (h : Host) :
    x.execute kind h =
      ⟨(.failed notConnected, { x with state := .failed }), h,
        [abortedNote notConnected]⟩ := by
  obtain ⟨descriptor, options, sink, state⟩ := x
  subst hx
  rfl

theorem execute_value (x : Connection) (kind : Bytes) (h : Host) :
    (x.execute kind h).value.2 = { x with state := .failed } ∧ x.descriptor = none ∨
    (x.execute kind h).value.2 = { x with state := .idle } := by
  by_cases hx : x.descriptor = none
  · exact Or.inl ⟨by rw [execute_closed hx], hx⟩
  · obtain ⟨fd, hfd⟩ := Option.ne_none_iff_exists'.mp hx
    right
    simp only [execute, hfd]
    rfl

/-- A wait for an answer ends with a payload, and then leaves the connection as
it is, or with the failure of the connection. -/
theorem awaitReply_cases (x : Connection) (h : Host) :
    (∃ payload, payload ≠ [] ∧
      (readFrame (Host.receiver x.descriptor) x.options.limits h).1 = .ok payload ∧
      (x.awaitReply h).value = (.handedOver (.reply payload), x)) ∨
    (∃ f, (x.awaitReply h).value =
        (.failed f, { x with descriptor := none, state := .failed }) ∧
      (x.awaitReply h).host.table = h.table.release x.descriptor) := by
  have htable := Host.table_readFrame x.descriptor x.options.limits h
  simp only [awaitReply, Action.bind_apply, Action.readFrame_apply]
  cases hresult : readFrame (Host.receiver x.descriptor) x.options.limits h with
  | mk result h₁ =>
  rw [hresult] at htable
  have hfailed : ∀ f, (x.fail f h₁).host.table = h.table.release x.descriptor := by
    intro f
    rw [fail_table, htable]
  cases result with
  | error fault => exact Or.inr ⟨_, fail_value x _ h₁, hfailed _⟩
  | ok payload =>
      cases payload with
      | nil =>
          simp only [EnvelopeSource.ofPayload]
          exact Or.inr ⟨_, fail_value x _ h₁, hfailed _⟩
      | cons b rest => exact Or.inl ⟨b :: rest, nofun, rfl, rfl⟩

/-- A frame that is not read, or has no payload, ends the connection. -/
theorem awaitReply_fails {x : Connection} {h : Host}
    (hread : ∀ payload, (readFrame (Host.receiver x.descriptor) x.options.limits h).1 =
      .ok payload → payload = []) :
    ∃ f, (x.awaitReply h).value =
        (.failed f, { x with descriptor := none, state := .failed }) ∧
      (x.awaitReply h).host.table = h.table.release x.descriptor := by
  rcases x.awaitReply_cases h with ⟨payload, hne, hok, -⟩ | hfailed
  · exact absurd (hread payload hok) hne
  · exact hfailed

end Connection

/-! ## Permitted runs -/

namespace Session

variable {α : Type} {s : Session} {c : Nat} {x : Connection}

/-- Where there is no connection, there is nothing to be done. -/
theorem perform_withConnection_nobody (hx : s.get? c = none) (f : Connection → Doing) :
    s.perform (s.withConnection c f) = .still s .nothing := by
  rw [withConnection, hx]
  rfl

/-- An operation on a connection changes that connection and no other. Operations
with and without an answer are the same as far as this goes. -/
theorem perform_use (hx : s.get? c = some x) (f : Connection → Action α)
    (answer : α → Answer) (kept : α → Connection) :
    s.perform (s.use c f answer kept) =
      ⟨answer (f x s.host).value,
        ({ s with host := (f x s.host).host } : Session).put c (kept (f x s.host).value),
        (f x s.host).notes⟩ := by
  simp only [use, withConnection, hx, perform, Action.bind_apply, Action.pure_apply,
    List.append_nil]
  rfl

theorem get?_use (s : Session) (c n : Nat) (f : Connection → Action α)
    (answer : α → Answer) (kept : α → Connection) :
    (s.perform (s.use c f answer kept)).session.get? n =
      if n = c then (s.get? c).map fun x => kept (f x s.host).value else s.get? n := by
  cases hx : s.get? c with
  | none =>
      rw [use, perform_withConnection_nobody hx]
      simp only [Progress.still, Option.map_none]
      split
      · next hn => rw [hn, hx]
      · rfl
  | some x =>
      rw [perform_use hx, get?_put]
      rfl

theorem get?_operate (s : Session) (c n : Nat)
    (f : Connection → Action (Outcome × Connection)) :
    (s.perform (s.operate c f)).session.get? n =
      if n = c then (s.get? c).map fun x => (f x s.host).value.2 else s.get? n :=
  get?_use s c n f (fun v => .outcome v.1) (fun v => v.2)

theorem get?_adjust (s : Session) (c n : Nat) (f : Connection → Action Connection) :
    (s.perform (s.adjust c f)).session.get? n =
      if n = c then (s.get? c).map fun x => (f x s.host).value else s.get? n :=
  get?_use s c n f (fun _ => .nothing) id

theorem answer_operate (hx : s.get? c = some x)
    (f : Connection → Action (Outcome × Connection)) :
    (s.perform (s.operate c f)).answer = .outcome (f x s.host).value.1 := by
  rw [operate, perform_use hx]

theorem step_create (s : Session) (c : Nat) (o : ConnectionOptions) :
    s.step (.create c o) =
      ⟨.nothing, ({ s with host := (s.closeAt c s.host).host } : Session).put c (.new o),
        (s.closeAt c s.host).notes⟩ := by
  simp only [step, perform, doing, Action.bind_apply, Action.pure_apply, List.append_nil]
  rfl

theorem step_destroy (s : Session) (c : Nat) :
    s.step (.destroy c) =
      ⟨.nothing, ({ s with host := (s.closeAt c s.host).host } : Session).drop c,
        (s.closeAt c s.host).notes⟩ := by
  simp only [step, perform, doing, Action.bind_apply, Action.pure_apply, List.append_nil]
  rfl

/-- What is replaced is closed when the connection that replaces it has been emptied
already, which matters if they are the same. -/
theorem step_moveNew {source : Nat} (hx : s.get? source = some x) (c : Nat) :
    s.step (.moveNew c source) =
      let closed := (s.put source x.emptied).closeAt c s.host
      ⟨.nothing, ({ s.put source x.emptied with host := closed.host } : Session).put c x,
        closed.notes⟩ := by
  simp only [step, perform, doing, withConnection, hx, Action.bind_apply, Action.pure_apply,
    List.append_nil]
  rfl

theorem step_moveAssign {source : Nat} {y : Connection} (hne : c ≠ source)
    (hy : s.get? c = some y) (hx : s.get? source = some x) :
    s.step (.moveAssign c source) =
      ⟨.nothing,
        (({ s with host := (y.close s.host).host } : Session).put c x).put source x.emptied,
        (y.close s.host).notes⟩ := by
  simp only [step, perform, doing, if_neg hne, withConnection, hy, hx, Action.bind_apply,
    Action.pure_apply, List.append_nil]
  rfl

theorem step_moveNew_nobody {source : Nat} (hx : s.get? source = none) (c : Nat) :
    s.step (.moveNew c source) = .still s .nothing :=
  perform_withConnection_nobody hx _

theorem step_moveAssign_self (s : Session) (c : Nat) :
    s.step (.moveAssign c c) = .still s .nothing := by
  simp only [step, perform, doing, if_true]
  rfl

theorem step_moveAssign_nobody {source : Nat} (h : s.get? c = none ∨ s.get? source = none) :
    s.step (.moveAssign c source) = .still s .nothing := by
  by_cases hne : c = source
  · rw [hne, step_moveAssign_self]
  simp only [step, doing, if_neg hne]
  cases hy : s.get? c with
  | none => exact perform_withConnection_nobody hy _
  | some y =>
      have hx : s.get? source = none := h.resolve_left (by rw [hy]; exact Option.some_ne_none y)
      rw [withConnection, hy]
      exact perform_withConnection_nobody hx _

/-- A connection takes the place of another one if there are two, and otherwise
nothing is done. -/
theorem step_moveAssign_cases (s : Session) (c source : Nat) :
    ((c = source ∨ s.get? c = none ∨ s.get? source = none) ∧
      s.step (.moveAssign c source) = .still s .nothing) ∨
    c ≠ source ∧ ∃ y x, s.get? c = some y ∧ s.get? source = some x := by
  by_cases hne : c = source
  · exact Or.inl ⟨Or.inl hne, by rw [hne, step_moveAssign_self]⟩
  cases hy : s.get? c with
  | none => exact Or.inl ⟨Or.inr (Or.inl rfl), step_moveAssign_nobody (Or.inl hy)⟩
  | some y =>
      cases hx : s.get? source with
      | none => exact Or.inl ⟨Or.inr (Or.inr rfl), step_moveAssign_nobody (Or.inr hx)⟩
      | some x => exact Or.inr ⟨hne, y, x, rfl, rfl⟩

theorem step_deliver (hx : s.get? c = some x) (e : LogEntry) :
    s.step (.deliver c e) = ⟨.delivery (x.sink.deliver e), s,
      if x.sink = .logger then [e.note] else []⟩ := by
  simp only [step, doing, withConnection, hx]
  cases x.sink <;> rfl

theorem step_deliver_nobody (hx : s.get? c = none) (e : LogEntry) :
    s.step (.deliver c e) = .still s .nothing :=
  perform_withConnection_nobody hx _

theorem step_deliver_session (s : Session) (c : Nat) (e : LogEntry) :
    (s.step (.deliver c e)).session = s := by
  cases hx : s.get? c with
  | none => rw [step_deliver_nobody hx]; rfl
  | some x => rw [step_deliver hx]

/-- The descriptor that the connection with a number holds. -/
def held (s : Session) (c : Nat) : Option Nat :=
  (s.get? c).bind (·.descriptor)

theorem unheld_of_connections {s : Session} {fd : Nat}
    (h : ∀ x ∈ s.connections, x.2.descriptor ≠ some fd) (c : Nat) :
    s.held c ≠ some fd := by
  intro hheld
  obtain ⟨x, hx, hfd⟩ := Option.bind_eq_some_iff.mp hheld
  obtain ⟨before, after, hsplit, -⟩ := List.lookup_eq_some_iff.mp hx
  exact h (c, x) (by rw [hsplit]; simp) hfd

/-- A step this library answers for: only an open descriptor that no connection
holds is adopted, and no exchange comes to a document. -/
def Permits (s : Session) : Step → Prop
  | .adopt _ (some fd) => s.host.isOpen fd = true ∧ ∀ c, s.held c ≠ some fd
  | .execute c _ => s.held c = none
  | .awaitReply c => ∀ x, s.get? c = some x → x.isOpen = true →
      ∀ payload, (readFrame (Host.receiver x.descriptor) x.options.limits s.host).1 =
        .ok payload → payload = []
  | _ => True

/-- A permitted wait for an answer ends without a payload, also where there is no
descriptor to read from. -/
theorem Permits.reading {s : Session} {c : Nat} (ha : s.Permits (.awaitReply c))
    {x : Connection} (hx : s.get? c = some x) (payload : Bytes)
    (hread : (readFrame (Host.receiver x.descriptor) x.options.limits s.host).1 =
      .ok payload) : payload = [] := by
  cases hd : x.descriptor with
  | none =>
      rw [hd] at hread
      exact absurd hread (readFrame_without_descriptor x.options.limits s.host payload)
  | some fd => exact ha x hx (by rw [Connection.isOpen, hd]; rfl) payload hread

/-- Each step of a run is permitted where it is done. -/
def Legal (s : Session) : List Step → Prop
  | [] => True
  | a :: rest => s.Permits a ∧ (s.step a).session.Legal rest

theorem run_append (s : Session) (before after : List Step) :
    (s.run (before ++ after)).session = ((s.run before).session.run after).session := by
  induction before generalizing s with
  | nil => rfl
  | cons a rest ih => exact ih (s.step a).session

theorem Legal.split {s : Session} {before after : List Step}
    (h : s.Legal (before ++ after)) :
    s.Legal before ∧ (s.run before).session.Legal after := by
  induction before generalizing s with
  | nil => exact ⟨trivial, h⟩
  | cons a rest ih =>
      obtain ⟨hrest, hafter⟩ := ih h.2
      exact ⟨⟨h.1, hrest⟩, hafter⟩

/-- What holds of a session and is preserved by permitted steps holds after
every permitted run. -/
theorem Legal.preserves {P : Session → Prop}
    (hstep : ∀ s a, P s → s.Permits a → P (s.step a).session) {s : Session}
    {steps : List Step} (hs : P s) (hlegal : s.Legal steps) : P (s.run steps).session := by
  induction steps generalizing s with
  | nil => exact hs
  | cons a rest ih => exact ih (hstep s a hs hlegal.1) hlegal.2

end Session

end DaemonLink
