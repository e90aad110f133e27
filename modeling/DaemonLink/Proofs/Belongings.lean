import DaemonLink.Proofs.FailureIsFinal

/-!
# Options and sinks follow their connections

A connection is set to options and has a sink, and it keeps both until it is
given others. It is given them when it is made, by the two steps that set them,
and by a move, which carries over what the other connection had and leaves that
one with the little it can do without. Every other step, an attempt to connect
and a failure included, is an operation that changes the descriptor and the
state and nothing else.

Options and sinks are alike in this, so what is said of them is said of a
belonging: something that can be read off a connection, of which it is known
what the two steps that set something make of it. The belonging a connection
has after a run is then the one that was passed to it last, and what is passed
in a step can be told from the step and from what the connections had before.
-/

namespace DaemonLink

/-- Something a connection has that its exchanges do not touch. -/
structure Belonging (α : Type) where
  of : Connection → α
  /-- What new options make of it, if it has to do with them. -/
  ofOptions : ConnectionOptions → Option α
  /-- What a new sink makes of it, if it has to do with that. -/
  ofSink : Sink → Option α
  untouched : ∀ (x : Connection) (descriptor : Option Nat) (state : State),
    of { x with descriptor := descriptor, state := state } = of x
  withOptions : ∀ (x : Connection) (o : ConnectionOptions),
    of { x with options := o } = (ofOptions o).getD (of x)
  withSink : ∀ (x : Connection) (k : Sink), of { x with sink := k } = (ofSink k).getD (of x)

namespace Belonging

def options : Belonging ConnectionOptions where
  of x := x.options
  ofOptions := some
  ofSink _ := none
  untouched _ _ _ := rfl
  withOptions _ _ := rfl
  withSink _ _ := rfl

def sink : Belonging Sink where
  of x := x.sink
  ofOptions _ := none
  ofSink := some
  untouched _ _ _ := rfl
  withOptions _ _ := rfl
  withSink _ _ := rfl

variable {α : Type} (b : Belonging α)

/-- What a connection has after another one was moved into `c`, if it was one of
the two. -/
def moved (s : Session) (c source n : Nat) : Option α :=
  if n = c then (s.get? source).map b.of
  else if n = source then (s.get? source).map fun x => b.of x.emptied
  else none

/-- What a step gives a connection, or carries to it. -/
def passed (s : Session) (a : Step) (n : Nat) : Option α :=
  match a with
  | .create c o => if n = c then some (b.of (.new o)) else none
  | .moveNew c source => b.moved s c source n
  | .moveAssign c source =>
      if c = source ∨ s.get? c = none then none else b.moved s c source n
  | .setOptions c o => if n = c then b.ofOptions o else none
  | .setSink c k => if n = c then b.ofSink k else none
  | _ => none

/-- What was passed to a connection last in a run. -/
def last {α : Type} (b : Belonging α) (s : Session) (n : Nat) : List Step → Option α
  | [] => none
  | a :: rest => (last b (s.step a).session n rest).or (b.passed s a n)

end Belonging

namespace Session

variable {α : Type} {s : Session} {n : Nat} {y : Connection}

/-! ## Which connection is where after a step -/

theorem get?_create (s : Session) (c n : Nat) (o : ConnectionOptions) :
    (s.step (.create c o)).session.get? n = if n = c then some (.new o) else s.get? n := by
  rw [step_create, get?_put]
  rfl

theorem get?_destroy (s : Session) (c n : Nat) :
    (s.step (.destroy c)).session.get? n = if n = c then none else s.get? n := by
  rw [step_destroy, get?_drop]
  rfl

theorem get?_moveNew {c source : Nat} {x : Connection} (hx : s.get? source = some x)
    (n : Nat) :
    (s.step (.moveNew c source)).session.get? n =
      if n = c then some x else if n = source then some x.emptied else s.get? n := by
  rw [step_moveNew hx, get?_put]
  split
  · rfl
  · exact get?_put s source n x.emptied

theorem get?_moveAssign {c source : Nat} {x z : Connection} (hne : c ≠ source)
    (hz : s.get? c = some z) (hx : s.get? source = some x) (n : Nat) :
    (s.step (.moveAssign c source)).session.get? n =
      if n = c then some x else if n = source then some x.emptied else s.get? n := by
  rw [step_moveAssign hne hz hx, get?_put]
  split
  · next hn =>
      have hother : n ≠ c := by
        rw [hn]
        exact hne.symm
      rw [if_neg hother]
  · exact get?_put { s with host := _ } c n x

/-! ## What a step passes on -/

/-- What a connection has after a step, told from the step and from what it had. -/
def Follows (b : Belonging α) (s : Session) (a : Step) (n : Nat) : Prop :=
  ∀ y, (s.step a).session.get? n = some y →
    (b.passed s a n).or ((s.get? n).map b.of) = some (b.of y)

theorem follows_moved {b : Belonging α} {c source : Nat} {x : Connection}
    (hx : s.get? source = some x)
    (hy : (if n = c then some x else if n = source then some x.emptied else s.get? n) = some y) :
    (b.moved s c source n).or ((s.get? n).map b.of) = some (b.of y) := by
  rw [Belonging.moved, hx]
  split at hy
  · next hn => cases hy; rw [if_pos hn]; rfl
  · next hn =>
      rw [if_neg hn]
      split at hy
      · next hs => cases hy; rw [if_pos hs]; rfl
      · next hs => rw [if_neg hs, hy]; rfl

theorem follows_changed {b : Belonging α} {c : Nat} {given : Option α}
    {f : Connection → Connection}
    (hf : ∀ x, s.get? c = some x → b.of (f x) = given.getD (b.of x))
    (hy : (if n = c then (s.get? c).map f else s.get? n) = some y) :
    (if n = c then given else none).or ((s.get? n).map b.of) = some (b.of y) := by
  split at hy
  · next hn =>
      subst hn
      obtain ⟨x, hx, rfl⟩ := Option.map_eq_some_iff.mp hy
      rw [if_pos rfl, hx, hf x hx]
      cases given <;> rfl
  · next hn =>
      rw [if_neg hn, hy]
      rfl

/-- Where nothing is passed, a connection is the one from before, with perhaps
another descriptor and another state. -/
theorem follows_untouched {b : Belonging α} {c : Nat} {f : Connection → Connection}
    (hf : ∀ x, ∃ descriptor state,
      f x = { x with descriptor := descriptor, state := state })
    (hy : (if n = c then (s.get? c).map f else s.get? n) = some y) :
    (none : Option α).or ((s.get? n).map b.of) = some (b.of y) := by
  have hsame : ∀ x, s.get? c = some x → b.of (f x) = (none : Option α).getD (b.of x) := by
    intro x _
    obtain ⟨descriptor, state, hx⟩ := hf x
    rw [hx]
    exact b.untouched x descriptor state
  have hfollows := follows_changed hsame hy
  rwa [ite_self] at hfollows

theorem follows_step (b : Belonging α) (s : Session) (a : Step) (n : Nat) :
    s.Follows b a n := by
  intro y hy
  cases a with
  | create c o =>
      rw [get?_create] at hy
      simp only [Belonging.passed]
      split at hy
      · next hn => cases hy; rw [if_pos hn]; rfl
      · next hn => rw [if_neg hn, hy]; rfl
  | destroy c =>
      rw [get?_destroy] at hy
      split at hy
      · cases hy
      · simp only [Belonging.passed, hy]
        rfl
  | moveNew c source =>
      cases hx : s.get? source with
      | none =>
          rw [step_moveNew_nobody hx] at hy
          replace hy : s.get? n = some y := hy
          simp only [Belonging.passed, Belonging.moved, hx, hy, Option.map_none, ite_self]
          rfl
      | some x =>
          rw [get?_moveNew hx] at hy
          exact follows_moved hx hy
  | moveAssign c source =>
      simp only [Belonging.passed]
      split
      · next hnone =>
          have hstill : s.step (.moveAssign c source) = .still s .nothing := by
            rcases hnone with rfl | hc
            · exact step_moveAssign_self s c
            · exact step_moveAssign_nobody (Or.inl hc)
          rw [hstill] at hy
          replace hy : s.get? n = some y := hy
          rw [hy]
          rfl
      · next hnone =>
          obtain ⟨hne, hlive⟩ := not_or.mp hnone
          obtain ⟨z, hz⟩ := Option.ne_none_iff_exists'.mp hlive
          cases hx : s.get? source with
          | none =>
              rw [step_moveAssign_nobody (Or.inr hx)] at hy
              replace hy : s.get? n = some y := hy
              simp only [Belonging.moved, hx, hy, Option.map_none, ite_self]
              rfl
          | some x =>
              rw [get?_moveAssign hne hz hx] at hy
              exact follows_moved hx hy
  | adopt c fd =>
      rw [show (s.step (.adopt c fd)).session.get? n = _ from get?_adjust s c n _] at hy
      exact follows_untouched (fun x => ⟨_, _, x.adopt_value fd s.host⟩) hy
  | connect c path =>
      rw [show (s.step (.connect c path)).session.get? n = _ from get?_operate s c n _] at hy
      refine follows_untouched (fun x => ?_) hy
      rcases x.connect_cases path s.host with ⟨f, hvalue, -⟩ | ⟨f, hvalue, -⟩ | ⟨hvalue, -⟩
      · rw [hvalue]; exact ⟨_, _, rfl⟩
      · rw [hvalue]; exact ⟨_, _, rfl⟩
      · rw [hvalue]; exact ⟨_, _, rfl⟩
  | close c =>
      rw [show (s.step (.close c)).session.get? n = _ from get?_adjust s c n _] at hy
      exact follows_untouched (fun x => ⟨_, _, x.close_value s.host⟩) hy
  | execute c kind =>
      rw [show (s.step (.execute c kind)).session.get? n = _ from get?_operate s c n _] at hy
      refine follows_untouched (fun x => ?_) hy
      rcases x.execute_value kind s.host with ⟨hvalue, -⟩ | hvalue
      · rw [hvalue]; exact ⟨_, _, rfl⟩
      · rw [hvalue]; exact ⟨_, _, rfl⟩
  | awaitReply c =>
      rw [show (s.step (.awaitReply c)).session.get? n = _ from get?_operate s c n _] at hy
      refine follows_untouched (fun x => ?_) hy
      rcases x.awaitReply_cases s.host with ⟨payload, -, -, hvalue⟩ | ⟨f, hvalue, -⟩
      · rw [hvalue]; exact ⟨_, _, rfl⟩
      · rw [hvalue]; exact ⟨_, _, rfl⟩
  | fail c f =>
      rw [show (s.step (.fail c f)).session.get? n = _ from get?_operate s c n _] at hy
      refine follows_untouched (fun x => ?_) hy
      rw [x.fail_value]
      exact ⟨_, _, rfl⟩
  | setOptions c o =>
      rw [show (s.step (.setOptions c o)).session.get? n = _ from get?_adjust s c n _] at hy
      exact follows_changed (fun x _ => b.withOptions x o) hy
  | setSink c k =>
      rw [show (s.step (.setSink c k)).session.get? n = _ from get?_adjust s c n _] at hy
      exact follows_changed (fun x _ => b.withSink x k) hy
  | deliver c e =>
      rw [step_deliver_session] at hy
      simp only [Belonging.passed, hy]
      rfl
  | happen what =>
      replace hy : s.get? n = some y := hy
      simp only [Belonging.passed, hy]
      rfl

/-- A connection has what was passed to it last, or what it had at the start. -/
theorem follows_run (b : Belonging α) {steps : List Step}
    (hy : (s.run steps).session.get? n = some y) :
    (b.last s n steps).or ((s.get? n).map b.of) = some (b.of y) := by
  induction steps generalizing s with
  | nil =>
      replace hy : s.get? n = some y := hy
      rw [hy]
      rfl
  | cons a rest ih =>
      have hrest := ih hy
      rw [Belonging.last]
      cases hlast : b.last (s.step a).session n rest with
      | some v =>
          rw [hlast] at hrest
          exact hrest
      | none =>
          rw [hlast] at hrest
          obtain ⟨z, hz, hsame⟩ := Option.map_eq_some_iff.mp hrest
          rw [← hsame]
          exact follows_step b s a n z hz

theorem last_run (b : Belonging α) {host : Host} {steps : List Step}
    (hy : ((new host).run steps).session.get? n = some y) :
    b.last (new host) n steps = some (b.of y) := by
  have hfollows := follows_run b hy
  have hnobody : (new host).get? n = none := rfl
  rwa [hnobody, Option.map_none, Option.or_none] at hfollows

/-! ## Deliveries -/

/-- The line that is handed over in a step, with the sink it is handed to. -/
def handed? (s : Session) : Step → Option (Sink × LogEntry)
  | .deliver c e => (s.get? c).map fun x => (x.sink, e)
  | _ => none

/-- The lines that are handed over in a run, each with the sink that the
connection has at the time. -/
def handedOver (s : Session) : List Step → List (Sink × LogEntry)
  | [] => []
  | a :: rest => (s.handed? a).toList ++ handedOver (s.step a).session rest

end Session

/-- What became of a line, if the step handed one over. -/
def Answer.delivery? : Answer → Option Sink.Delivery
  | .delivery d => some d
  | _ => none

theorem Sink.deliver_eq_dropped_iff {k : Sink} {e : LogEntry} :
    k.deliver e = .dropped ↔ k = .none := by
  cases k <;> simp [deliver]

namespace Session

theorem delivery?_use {α : Type} (s : Session) (c : Nat) (f : Connection → Action α)
    (answer : α → Answer) (h : ∀ v, (answer v).delivery? = none) (kept : α → Connection) :
    (s.perform (s.use c f answer kept)).answer.delivery? = none := by
  cases hx : s.get? c with
  | none => rw [use, perform_withConnection_nobody hx]; rfl
  | some x => rw [perform_use hx]; exact h _

theorem delivery?_adjust (s : Session) (c : Nat) (f : Connection → Action Connection) :
    (s.perform (s.adjust c f)).answer.delivery? = none :=
  delivery?_use s c f (fun _ => .nothing) (fun _ => rfl) id

theorem delivery?_operate (s : Session) (c : Nat)
    (f : Connection → Action (Outcome × Connection)) :
    (s.perform (s.operate c f)).answer.delivery? = none :=
  delivery?_use s c f (fun v => .outcome v.1) (fun _ => rfl) (fun v => v.2)

theorem delivery?_step (s : Session) (a : Step) :
    (s.step a).answer.delivery? = (s.handed? a).map fun d => d.1.deliver d.2 := by
  cases a with
  | deliver c e =>
      cases hx : s.get? c with
      | none => rw [step_deliver_nobody hx, handed?, hx]; rfl
      | some x => rw [step_deliver hx, handed?, hx]; rfl
  | create c o => rw [step_create]; rfl
  | destroy c => rw [step_destroy]; rfl
  | happen what => rfl
  | moveNew c source =>
      cases hx : s.get? source with
      | none => rw [step_moveNew_nobody hx]; rfl
      | some x => rw [step_moveNew hx]; rfl
  | moveAssign c source =>
      rcases s.step_moveAssign_cases c source with ⟨-, hstill⟩ | ⟨hne, y, x, hy, hx⟩
      · rw [hstill]; rfl
      · rw [step_moveAssign hne hy hx]; rfl
  | adopt | close | setOptions | setSink =>
      exact delivery?_adjust s _ _
  | connect | execute | awaitReply | fail =>
      exact delivery?_operate s _ _

/-- What becomes of the lines is what the sinks make of them, one after another. -/
theorem deliveries_run (s : Session) (steps : List Step) :
    (s.run steps).answers.filterMap Answer.delivery? =
      (s.handedOver steps).map fun d => d.1.deliver d.2 := by
  induction steps generalizing s with
  | nil => rfl
  | cons a rest ih =>
      rw [run, handedOver, List.map_append, ← ih, List.filterMap_cons, delivery?_step]
      cases s.handed? a <;> rfl

end Session

theorem ConnectionOptions.accepts_iff {o : ConnectionOptions} {kinds : List Bytes}
    (h : o.accepted = .ofList kinds) (request reply : Bytes) :
    o.accepts request reply = true ↔ o.strict = false ∨ reply = request ∨ reply ∈ kinds := by
  rw [accepts, h, KindSet.contains]
  simp only [Bool.or_eq_true, Bool.not_eq_true', decide_eq_true_eq, List.contains_iff_mem,
    KindSet.mem_ofList, or_assoc]

namespace Session

/-- After every run a connection has the options and the sink that were given to
it or carried to it last, and a step that passes it neither leaves both as they
are. A new connection has the options it is made with and the usual sink. Each
line that is handed over comes to what the sink of that time makes of it, once
and in order, and is dropped only by a sink that is empty. A reply is accepted
unless the options are strict and its kind is neither that of the request nor
listed. A move onto itself does nothing, and any other leaves behind the limits
and the strictness, with no kinds and no sink. -/
theorem options_and_sink_follow (host : Host) (steps : List Step) :
    let s := ((new host).run steps).session
    (∀ c x, s.get? c = some x →
      Belonging.options.last (new host) c steps = some x.options ∧
      Belonging.sink.last (new host) c steps = some x.sink) ∧
    (∀ a c x y, s.get? c = some x → (s.step a).session.get? c = some y →
      (Belonging.options.passed s a c = none → y.options = x.options) ∧
      (Belonging.sink.passed s a c = none → y.sink = x.sink)) ∧
    (∀ c o, (s.step (.create c o)).session.get? c = some ⟨none, o, .logger, .idle⟩) ∧
    ((new host).run steps).answers.filterMap Answer.delivery? =
      ((new host).handedOver steps).map (fun d => d.1.deliver d.2) ∧
    (∀ c x e, s.get? c = some x →
      s.step (.deliver c e) = ⟨.delivery (x.sink.deliver e), s,
        if x.sink = .logger then [e.note] else []⟩ ∧
      (x.sink.deliver e = .dropped ↔ x.sink = .none)) ∧
    (∀ c x kinds, s.get? c = some x → x.options.accepted = .ofList kinds →
      ∀ request reply, x.options.accepts request reply = true ↔
        x.options.strict = false ∨ reply = request ∨ reply ∈ kinds) ∧
    (∀ c, s.step (.moveAssign c c) = ⟨.nothing, s, []⟩) ∧
    ∀ c source x a, c ≠ source → s.get? source = some x →
      a = .moveNew c source ∨ a = .moveAssign c source ∧ s.get? c ≠ none →
      (s.step a).session.get? c = some x ∧
      (s.step a).session.get? source =
        some ⟨none, ⟨x.options.limits, x.options.strict, .empty⟩, .none, .idle⟩ := by
  intro s
  refine ⟨?_, ?_, ?_, deliveries_run (new host) steps, ?_, ?_, step_moveAssign_self s, ?_⟩
  · exact fun c x hx => ⟨last_run Belonging.options hx, last_run Belonging.sink hx⟩
  · intro a c x y hx hy
    have hoptions := follows_step Belonging.options s a c y hy
    have hsink := follows_step Belonging.sink s a c y hy
    rw [hx] at hoptions hsink
    refine ⟨fun hnone => ?_, fun hnone => ?_⟩
    · rw [hnone] at hoptions
      exact (Option.some.inj hoptions).symm
    · rw [hnone] at hsink
      exact (Option.some.inj hsink).symm
  · intro c o
    rw [get?_create, if_pos rfl]
    rfl
  · exact fun c x e hx => ⟨step_deliver hx e, Sink.deliver_eq_dropped_iff⟩
  · exact fun c x kinds _ hkinds => ConnectionOptions.accepts_iff hkinds
  · intro c source x a hne hx ha
    have hget : ∀ n, (s.step a).session.get? n =
        if n = c then some x else if n = source then some x.emptied else s.get? n := by
      rcases ha with rfl | ⟨rfl, hlive⟩
      · exact get?_moveNew hx
      · obtain ⟨z, hz⟩ := Option.ne_none_iff_exists'.mp hlive
        exact get?_moveAssign hne hz hx
    rw [hget c, hget source, if_pos rfl, if_neg hne.symm, if_pos rfl]
    exact ⟨rfl, rfl⟩

/-- A connection with a sink of its own is moved, and a line is handed to both
sides of the move before and after an attempt to connect. -/
theorem options_and_sink_follow_move :
    let kinds := [text "query", text "ping", text "query"]
    let options : ConnectionOptions := { strict := true, accepted := .ofList kinds }
    let line : LogEntry := ⟨text "daemon", .warn, text "disk full"⟩
    let steps : List Step := [.create 0 options, .setSink 0 (.named (text "mine")),
      .moveNew 1 0, .deliver 0 line, .connect 1 [atSign, 120], .deliver 1 line,
      .setSink 0 .logger]
    let s := ((new (.new .bare FileTree.root)).run steps).session
    s.get? 0 = some ⟨none, { strict := true }, .logger, .idle⟩ ∧
      s.get? 1 = some ⟨none, options, .named (text "mine"), .idle⟩ ∧
      Belonging.options.last (new (.new .bare FileTree.root)) 1 steps = some options ∧
      ((new (.new .bare FileTree.root)).run steps).answers.filterMap Answer.delivery? =
        [.dropped, .received (text "mine") line] ∧
      options.accepts (text "apply") (text "ping") = true ∧
      (s.step (.deliver 0 line)).notes = [line.note] := by
  intro kinds options line steps s
  have hleft : s.get? 0 = some ⟨none, { strict := true }, .logger, .idle⟩ := by decide
  have hmoved : s.get? 1 = some ⟨none, options, .named (text "mine"), .idle⟩ := by decide
  obtain ⟨hlast, -, -, hdeliveries, hlines, haccepts, -, -⟩ :=
    options_and_sink_follow (.new .bare FileTree.root) steps
  have hoptions := (hlast 1 _ hmoved).1
  have hnamed := (haccepts 1 _ kinds hmoved rfl (text "apply") (text "ping")).mpr
    (Or.inr (Or.inr (by decide)))
  have hline := (hlines 0 _ line hleft).1
  refine ⟨hleft, hmoved, hoptions, ?_, hnamed, ?_⟩
  · rw [hdeliveries]
    decide
  · rw [hline]
    rfl

end Session

end DaemonLink
