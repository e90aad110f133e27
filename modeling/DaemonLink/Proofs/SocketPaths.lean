import DaemonLink.Client
import DaemonLink.Proofs.SessionSteps

/-!
# Which paths can be connected to

An address has room for 108 bytes, and what is copied there comes from whoever
names the socket. The path is therefore looked at before anything else is done,
and turned away if it is empty or if its name has 107 bytes or more. A name that
is let through is copied into a block of zeros, and there always is a zero left:
behind a path, or in front of an abstract name.

The two forms differ in what their length means. With a path the whole block is
the address, and the first zero ends the name. An abstract name ends where the
address ends, so the length that goes with it has to be the right one. In both
the system reads back what was written, as long as no zero was written by the
user, and this is why different paths have different addresses.

An attempt to connect begins by closing what was open. It then fails in one of
three places, and wherever that is, the connection is closed and otherwise as it
was, and the machine has no descriptor open that it had not before.
-/

namespace DaemonLink

namespace Address

/-! ## The address in memory -/

/-- Bytes copied into a block, if all of them come to lie inside it. -/
def copy? (block : Bytes) (start : Nat) (data : Bytes) : Option Bytes :=
  if start + data.length ≤ block.length then
    some (block.take start ++ data ++ block.drop (start + data.length))
  else none

/-- The block of an address, filled in place. It starts as zeros. Of an abstract
name the first byte is written too, and the name behind it. -/
def layOut? (path : Bytes) : Option Bytes :=
  let zeros := List.replicate capacity nul
  if path.head? = some atSign then
    (copy? zeros 0 [nul]).bind fun block => copy? block 1 (nameOf path)
  else copy? zeros 0 (nameOf path)

/-- A path that is turned away: there is none, or its name is too long. -/
def Rejected (path : Bytes) : Prop :=
  path = [] ∨ 107 ≤ (nameOf path).length

/-- An address that has been made of a path inside its block. -/
structure Laid (path : Bytes) (a : Address) : Prop where
  inside : ∃ block, layOut? path = some block ∧ block.length = 108 ∧
    a.bytes = block.take (a.length - 2)
  fits : a.length ≤ 110
  abstractName : ∀ name, path = atSign :: name →
    a.bytes = nul :: name ∧ a.length = 3 + name.length ∧ a.length ≤ 109
  plain : path.head? ≠ some atSign →
    ∃ n, 0 < n ∧ a.bytes = path ++ List.replicate n nul ∧ a.length = 110

theorem nameOf_abstract (name : Bytes) : nameOf (atSign :: name) = name :=
  if_pos rfl

theorem nameOf_plain {path : Bytes} (h : path.head? ≠ some atSign) : nameOf path = path :=
  if_neg h

theorem admits_iff {path : Bytes} : admits path = true ↔ ¬ Rejected path := by
  rw [admits, Rejected, Bool.and_eq_true, Bool.not_eq_true', List.isEmpty_eq_false_iff,
    decide_eq_true_eq, not_or, Nat.not_le]
  rfl

/-- The longest names, in either form, and one that is too long. -/
example :
    admits (List.replicate 106 slash) = true ∧ admits (atSign :: List.replicate 106 slash) = true ∧
      admits (List.replicate 107 slash) = false := by
  decide

theorem ofPath?_rejected {path : Bytes} (h : Rejected path) : ofPath? path = none :=
  if_neg fun hadmits => admits_iff.mp hadmits h

theorem ofPath?_of_not_rejected {path : Bytes} (h : ¬ Rejected path) :
    ofPath? path = some (ofPath path) :=
  if_pos (admits_iff.mpr h)

theorem ofPath_abstract (name : Bytes) : (ofPath (atSign :: name)).bytes = nul :: name :=
  rfl

theorem ofPath_plain {path : Bytes} (h : path.head? ≠ some atSign) :
    (ofPath path).bytes = path ++ List.replicate (capacity - path.length) nul :=
  if_neg h

/-- Bytes copied to the zeros that follow what has been written. -/
theorem copy?_behind (front : Bytes) {data : Bytes} {n : Nat} (h : data.length ≤ n) :
    copy? (front ++ List.replicate n nul) front.length data =
      some (front ++ data ++ List.replicate (n - data.length) nul) := by
  rw [copy?, if_pos, List.take_left' rfl, List.drop_append, List.drop_of_length_le (by omega),
    List.nil_append, Nat.add_sub_cancel_left, List.drop_replicate]
  rw [List.length_append, List.length_replicate]
  omega

theorem layOut?_abstract {name : Bytes} (h : name.length < 107) :
    layOut? (atSign :: name) = some (nul :: name ++ List.replicate (107 - name.length) nul) := by
  have hhead : (atSign :: name).head? = some atSign := rfl
  have hzero : copy? (List.replicate capacity nul) 0 [nul] =
      some ([nul] ++ List.replicate 107 nul) :=
    copy?_behind [] (show [nul].length ≤ capacity by decide)
  rw [layOut?, if_pos hhead, hzero, Option.bind_some, nameOf_abstract]
  exact copy?_behind [nul] (Nat.le_of_lt h)

theorem layOut?_plain {path : Bytes} (hplain : path.head? ≠ some atSign)
    (h : path.length ≤ capacity) :
    layOut? path = some (path ++ List.replicate (capacity - path.length) nul) := by
  rw [layOut?, if_neg hplain, nameOf_plain hplain]
  exact copy?_behind [] h

theorem laid_abstract {name : Bytes} (h : name.length < 107) :
    Laid (atSign :: name) (ofPath (atSign :: name)) := by
  have hsize : (ofPath (atSign :: name)).length = 3 + name.length := by
    rw [length, ofPath_abstract, List.length_cons, familySize]
    omega
  refine ⟨⟨_, layOut?_abstract h, ?_, ?_⟩, by omega, ?_, fun hplain => absurd rfl hplain⟩
  · rw [List.length_append, List.length_cons, List.length_replicate]
    omega
  · rw [hsize, ofPath_abstract, List.take_left']
    rw [List.length_cons]
    omega
  · rintro _ ⟨rfl⟩
    exact ⟨ofPath_abstract name, hsize, by omega⟩

theorem laid_plain {path : Bytes} (hplain : path.head? ≠ some atSign) (h : path.length < 107) :
    Laid path (ofPath path) := by
  have hcapacity : capacity = 108 := rfl
  have hbytes := ofPath_plain hplain
  have hblock : (ofPath path).bytes.length = 108 := by
    rw [hbytes, List.length_append, List.length_replicate]
    omega
  have hsize : (ofPath path).length = 110 := by
    rw [length, hblock, familySize]
  have hlaid := layOut?_plain hplain (show path.length ≤ capacity by omega)
  rw [← hbytes] at hlaid
  refine ⟨⟨_, hlaid, hblock, ?_⟩, by omega, ?_, ?_⟩
  · rw [hsize, List.take_of_length_le (by omega)]
  · rintro name rfl
    exact absurd rfl hplain
  · exact fun _ => ⟨_, by omega, hbytes, hsize⟩

theorem ofPath_laid {path : Bytes} (h : ¬ Rejected path) : Laid path (ofPath path) := by
  obtain ⟨-, hlength⟩ := not_or.mp h
  rw [Nat.not_le] at hlength
  by_cases hat : path.head? = some atSign
  · obtain ⟨name, rfl⟩ := List.head?_eq_some_iff.mp hat
    rw [nameOf_abstract] at hlength
    exact laid_abstract hlength
  · rw [nameOf_plain hat] at hlength
    exact laid_plain hat hlength

/-! ## Different paths -/

/-- How a user writes what an address names. -/
def Target.written : Target → Bytes
  | abstractName name => atSign :: name
  | path bytes => bytes

theorem untilNul_append_zeros {bytes : Bytes} (h : nul ∉ bytes) (n : Nat) :
    untilNul (bytes ++ List.replicate n nul) = bytes := by
  have hall : ∀ b ∈ bytes, (b != nul) = true := by
    intro b hb
    rw [bne_iff_ne]
    rintro rfl
    exact h hb
  rw [untilNul, List.takeWhile_append_of_pos hall, List.takeWhile_replicate]
  exact List.append_nil bytes

/-- The system finds in the address what was written. -/
theorem written_target_ofPath {path : Bytes} (h : ¬ Rejected path) (hnul : nul ∉ path) :
    (ofPath path).target.written = path := by
  obtain ⟨hne, -⟩ := not_or.mp h
  by_cases hat : path.head? = some atSign
  · obtain ⟨name, rfl⟩ := List.head?_eq_some_iff.mp hat
    rfl
  · obtain ⟨b, rest, rfl⟩ := List.exists_cons_of_ne_nil hne
    have hb : b ≠ nul := fun hb => hnul (by rw [hb]; exact List.mem_cons_self)
    rw [target, ofPath_plain hat, List.cons_append]
    simp only [if_neg hb, Target.written]
    exact untilNul_append_zeros hnul _

theorem ofPath_injective {path other : Bytes} (hpath : ¬ Rejected path) (hother : ¬ Rejected other)
    (hnul : nul ∉ path) (hnul' : nul ∉ other) (h : ofPath path = ofPath other) : path = other := by
  rw [← written_target_ofPath hpath hnul, h, written_target_ofPath hother hnul']

end Address

/-! ## The attempt -/

theorem append_ne_of_heads {front other : Bytes} {b b' : UInt8} (hfront : front.head? = some b)
    (hother : other.head? = some b') (hne : b ≠ b') (x y : Bytes) : front ++ x ≠ other ++ y := by
  obtain ⟨rest, rfl⟩ := List.head?_eq_some_iff.mp hfront
  obtain ⟨rest', rfl⟩ := List.head?_eq_some_iff.mp hother
  intro h
  exact hne (List.cons.inj h).1

theorem Client.once_of_failed {path : Bytes} {h : Host} {f : Failure}
    (hfailed : ((Connection.new {}).connect path h).value.1 = .failed f) (command : Command) :
    (Client.once path command h).value = .failed f ∧
      (Client.once path command h).host = ((Connection.new {}).connect path h).host := by
  simp only [once, connect, new, Action.bind_apply, through_apply, hfailed, Action.pure_apply,
    and_self]

namespace Connection

/-- Why an attempt to connect to a path fails on a machine. -/
inductive Refusal (path : Bytes) (h : Host) : Failure → Prop
  | badPath (hpath : Address.Rejected path) :
      Refusal path h
        ⟨.frameIo, text "connect", text "invalid socket path '" ++ path ++ text "'"⟩
  | noSocket {e : SystemError} (hpath : ¬ Address.Rejected path)
      (hopen : h.openSocket = (.error e, h)) :
      Refusal path h
        ⟨.frameIo, text "connect", text "socket(AF_UNIX) failed: " ++ e.message⟩
  | notConnected {fd : Nat} {opened after : Host} {e : SystemError}
      (hpath : ¬ Address.Rejected path) (hopen : h.openSocket = (.ok fd, opened))
      (hconnect : opened.connect fd (.ofPath path) = (.error e, after)) :
      Refusal path h
        ⟨.frameIo, text "connect", text "failed to connect " ++ path ++ text ": " ++ e.message⟩

/-- The three reasons begin differently, so the text tells that it was the
path. -/
theorem Refusal.rejected {path : Bytes} {h : Host} {f : Failure} (hf : Refusal path h f)
    (hmessage : f.message = text "invalid socket path '" ++ path ++ text "'") :
    Address.Rejected path := by
  have hinvalid : (text "invalid socket path '").head? = some 105 := by decide
  rw [List.append_assoc] at hmessage
  cases hf with
  | badPath hpath => exact hpath
  | noSocket hpath hopen =>
      have hsocket : (text "socket(AF_UNIX) failed: ").head? = some 115 := by decide
      exact absurd hmessage (append_ne_of_heads hsocket hinvalid (by decide) _ _)
  | notConnected hpath hopen hconnect =>
      have hfailed : (text "failed to connect ").head? = some 102 := by decide
      simp only [List.append_assoc] at hmessage
      exact absurd hmessage (append_ne_of_heads hfailed hinvalid (by decide) _ _)

section Attempt

variable (c : Connection) {path : Bytes} {h : Host}

theorem connect_rejected (hpath : Address.Rejected path) :
    (c.connect path h).value =
        (.failed (ConnectFault.badPath path).failure, { c with descriptor := none }) ∧
      (c.connect path h).host = (c.close h).host := by
  simp only [connect, Action.bind_apply, close_value, Address.ofPath?_rejected hpath,
    Action.pure_apply, and_self]

theorem connect_unopened {e : SystemError} {opened : Host} (hpath : ¬ Address.Rejected path)
    (hopen : (c.close h).host.openSocket = (.error e, opened)) :
    (c.connect path h).value =
      (.failed (ConnectFault.noSocket e).failure, { c with descriptor := none }) := by
  simp only [connect, Action.bind_apply, close_value, Address.ofPath?_of_not_rejected hpath,
    Action.openSocket_apply, hopen, Action.pure_apply]

theorem connect_refused {e : SystemError} {fd : Nat} {opened after : Host}
    (hpath : ¬ Address.Rejected path) (hopen : (c.close h).host.openSocket = (.ok fd, opened))
    (hconnect : opened.connect fd (.ofPath path) = (.error e, after)) :
    (c.connect path h).value =
      (.failed (ConnectFault.refused path e).failure, { c with descriptor := none }) := by
  simp only [connect, Action.bind_apply, close_value, Address.ofPath?_of_not_rejected hpath,
    Action.openSocket_apply, hopen, Action.connect_apply, hconnect, Action.pure_apply]

theorem connect_connected {fd : Nat} {opened after : Host}
    (hpath : ¬ Address.Rejected path) (hopen : (c.close h).host.openSocket = (.ok fd, opened))
    (hconnect : opened.connect fd (.ofPath path) = (.ok (), after)) :
    (c.connect path h).value = (.done, { c with descriptor := some fd, state := .idle }) ∧
      (c.connect path h).host = after := by
  simp only [connect, Action.bind_apply, close_value, Address.ofPath?_of_not_rejected hpath,
    Action.openSocket_apply, hopen, Action.connect_apply, hconnect, Action.tell_apply,
    Action.pure_apply, and_self]

end Attempt

theorem isOpen_of_connected {h opened after : Host} {fd : Nat} {a : Address}
    {answer : Except SystemError Unit} (hopen : h.openSocket = (.ok fd, opened))
    (hconnect : opened.connect fd a = (answer, after)) : after.isOpen fd = true := by
  obtain ⟨rfl, hgrown⟩ := Host.table_openSocket hopen
  have hsame := Host.table_connect opened h.next a
  rw [hconnect, hgrown] at hsame
  show after.table.isOpen h.next = true
  rw [hsame]
  exact DescriptorTable.isOpen_grow.mpr (.inl rfl)

theorem connect_ends (c : Connection) (path : Bytes) (h : Host) :
    let closed := (c.close h).host
    let ended := c.connect path h
    (∃ fd opened, ended.value = (.done, { c with descriptor := some fd, state := .idle }) ∧
      ¬ Address.Rejected path ∧ closed.openSocket = (.ok fd, opened) ∧
      opened.connect fd (.ofPath path) = (.ok (), ended.host)) ∨
    (∃ f, ended.value = (.failed f, { c with descriptor := none }) ∧ Refusal path closed f) := by
  intro closed ended
  by_cases hpath : Address.Rejected path
  · exact .inr ⟨_, (c.connect_rejected hpath).1, .badPath hpath⟩
  rcases hopen : closed.openSocket with ⟨e | fd, opened⟩
  · have hstill := Host.table_openSocket_error hopen
    subst hstill
    exact .inr ⟨_, c.connect_unopened hpath hopen, .noSocket hpath hopen⟩
  rcases hconnect : opened.connect fd (.ofPath path) with ⟨e | ok, after⟩
  · exact .inr ⟨_, c.connect_refused hpath hopen hconnect,
      .notConnected hpath hopen hconnect⟩
  · obtain ⟨hvalue, hhost⟩ := c.connect_connected hpath hopen hconnect
    rw [← hhost] at hconnect
    exact .inl ⟨fd, opened, hvalue, hpath, rfl, hconnect⟩

theorem connect_of_done {c : Connection} {path : Bytes} {h : Host}
    (hdone : (c.connect path h).value.1 = .done) :
    ∃ fd opened,
      (c.connect path h).value = (.done, { c with descriptor := some fd, state := .idle }) ∧
      ¬ Address.Rejected path ∧ (c.close h).host.openSocket = (.ok fd, opened) ∧
      opened.connect fd (.ofPath path) = (.ok (), (c.connect path h).host) := by
  rcases c.connect_ends path h with hconnected | ⟨f, hvalue, -⟩
  · exact hconnected
  · rw [hvalue] at hdone
    cases hdone

theorem connect_of_failed {c : Connection} {path : Bytes} {h : Host}
    (hfailed : (c.connect path h).value.1 ≠ .done) :
    ∃ f, (c.connect path h).value = (.failed f, { c with descriptor := none }) ∧
      Refusal path (c.close h).host f ∧
      ∀ fd, (c.connect path h).host.isOpen fd = true → (c.close h).host.isOpen fd = true := by
  rcases c.connect_ends path h with ⟨fd, opened, hvalue, -⟩ | ⟨f, hvalue, hrefusal⟩
  · rw [hvalue] at hfailed
    exact absurd rfl hfailed
  · exact ⟨f, hvalue, hrefusal, fun fd => isOpen_after_failed_connect hfailed⟩

theorem rejected_of_connect {c : Connection} {path : Bytes} {h : Host}
    (hbad : (c.connect path h).value.1 =
      .failed ⟨.frameIo, text "connect", text "invalid socket path '" ++ path ++ text "'"⟩) :
    Address.Rejected path := by
  have hfailed : (c.connect path h).value.1 ≠ .done := by
    rw [hbad]
    nofun
  obtain ⟨f, hvalue, hrefusal, -⟩ := connect_of_failed hfailed
  rw [hvalue] at hbad
  cases hbad
  exact hrefusal.rejected rfl

/-- Connecting to a path, on any machine and with any connection. What was open
is closed first. A path is turned away, with the machine left alone, exactly if
it is empty or its name is too long. The address of any other path is laid out
inside its block, and is the address of no second path without zeros. The
attempt succeeds exactly if a socket can be made and the system connects it to
this address, and then the connection holds that socket and is idle. Otherwise
it fails for one of three reasons, each of them an error of connecting, and the
connection is closed and otherwise as it was. A client connects as its
connection does, and one that is made for a single command goes no further than
a failure. -/
theorem connect_opens_or_fails (c : Connection) (path : Bytes) (h : Host) :
    let closed := (c.close h).host
    let ended := c.connect path h
    closed.table = h.table.release c.descriptor ∧
    (ended.value.1 = .failed
        ⟨.frameIo, text "connect", text "invalid socket path '" ++ path ++ text "'"⟩ ↔
      Address.Rejected path) ∧
    (Address.Rejected path → ended.host = closed) ∧
    (¬ Address.Rejected path → Address.Laid path (.ofPath path)) ∧
    (∀ other, ¬ Address.Rejected path → ¬ Address.Rejected other → nul ∉ path → nul ∉ other →
      Address.ofPath path = Address.ofPath other → path = other) ∧
    (ended.value.1 = .done ↔
      ¬ Address.Rejected path ∧ ∃ fd opened after, closed.openSocket = (.ok fd, opened) ∧
        opened.connect fd (.ofPath path) = (.ok (), after)) ∧
    (ended.value.1 = .done →
      ∃ fd opened, closed.openSocket = (.ok fd, opened) ∧
        opened.connect fd (.ofPath path) = (.ok (), ended.host) ∧
        ended.host.isOpen fd = true ∧
        ended.value.2 = { c with descriptor := some fd, state := .idle }) ∧
    (ended.value.1 ≠ .done →
      ∃ f, ended.value.1 = .failed f ∧ Refusal path closed f ∧
        ended.value.2 = { c with descriptor := none } ∧
        ∀ fd, ended.host.isOpen fd = true → closed.isOpen fd = true) ∧
    (Client.connect ⟨c⟩ path h).value = (ended.value.1, ⟨ended.value.2⟩) ∧
    (Client.connect ⟨c⟩ path h).host = ended.host ∧
    (c = .new {} → ∀ command f, ended.value.1 = .failed f →
      (Client.once path command h).value = .failed f ∧
      (Client.once path command h).host = ended.host) := by
  intro closed ended
  refine ⟨c.close_table h, ⟨rejected_of_connect, ?_⟩, ?_, Address.ofPath_laid, ?_, ⟨?_, ?_⟩, ?_, ?_,
    ?_, ?_, ?_⟩
  · intro hpath
    show (c.connect path h).value.1 = _
    rw [(c.connect_rejected hpath).1]
    rfl
  · intro hpath
    exact (c.connect_rejected hpath).2
  · intro other hpath hother
    exact Address.ofPath_injective hpath hother
  · intro hdone
    obtain ⟨fd, opened, -, hpath, hopen, hconnect⟩ := connect_of_done hdone
    exact ⟨hpath, fd, opened, _, hopen, hconnect⟩
  · rintro ⟨hpath, fd, opened, after, hopen, hconnect⟩
    show (c.connect path h).value.1 = _
    rw [(c.connect_connected hpath hopen hconnect).1]
  · intro hdone
    obtain ⟨fd, opened, hvalue, -, hopen, hconnect⟩ := connect_of_done hdone
    have hheld : ended.value.2 = { c with descriptor := some fd, state := .idle } := by
      rw [hvalue]
    exact ⟨fd, opened, hopen, hconnect, isOpen_of_connected hopen hconnect, hheld⟩
  · intro hfailed
    obtain ⟨f, hvalue, hrefusal, hleft⟩ := connect_of_failed hfailed
    have houtcome : ended.value.1 = .failed f := by rw [hvalue]
    have hclosed : ended.value.2 = { c with descriptor := none } := by rw [hvalue]
    exact ⟨f, houtcome, hrefusal, hclosed, hleft⟩
  · rw [Client.connect, Client.through_apply]
  · rw [Client.connect, Client.through_apply]
  · rintro rfl command f hf
    exact Client.once_of_failed hf command

/-- Somebody listens under one abstract name, and nobody under another. -/
example :
    let h := { Host.new .bare FileTree.root with abstractNames := [(text "d", .stream)] }
    ((new {}).connect (text "@d") h).value = (.done, { new {} with descriptor := some 3 }) ∧
      ((new {}).connect (text "@e") h).value.1 =
        .failed ⟨.frameIo, text "connect", text "failed to connect @e: Connection refused"⟩ := by
  decide

end Connection

end DaemonLink
