import DaemonLink.Action
import DaemonLink.Proofs.FrameReading

/-!
# What does not look at files

Two things that a program asks for look at files: a connection to a path, and whether
a file can be opened. All else comes out the same on a machine with other files and
leaves them alone. To say so for a frame that is read is to say it for every wait and
every piece received on the way, so it is said of receivers first: a change of the
stream is ignored if it can be made before as well as behind whatever is asked of it.

What happens around the program can change files, and what becomes of them depends on
nothing but the files.
-/

namespace DaemonLink

variable {σ ε : Type}

/-- A change of a stream that does not show when it is read, and is not undone. -/
structure Receiver.Ignores (r : Receiver σ) (f : σ → σ) : Prop where
  wait : ∀ timeout s, r.wait timeout (f s) = ((r.wait timeout s).1, f (r.wait timeout s).2)
  receive : ∀ w s, r.receive w (f s) = ((r.receive w s).1, f (r.receive w s).2)

section Reading

variable {r : Receiver σ} {f : σ → σ}

theorem Receiver.Ignores.await (hr : r.Ignores f) (timeout : Int) (s : σ) :
    r.await timeout (f s) = ((r.await timeout s).1, f (r.await timeout s).2) := by
  rw [Receiver.await, Receiver.await]
  split
  · rfl
  · exact hr.wait timeout s

theorem readInto_ignores (hr : r.Ignores f) (timeout : Int) (total : Nat) (w : Window) (s : σ) :
    readInto r timeout total w (f s) =
      { readInto r timeout total w s with stream := f (readInto r timeout total w s).stream } := by
  fun_induction readInto r timeout total w s with
  | case1 w s hroom => exact readInto_zero r timeout total hroom (f s)
  | case2 w s hroom s₁ hawait | case3 w s hroom e s₁ hawait =>
      rw [readInto, if_neg hroom, hr.await, hawait]
  | case4 w s hroom s₁ hawait s₂ hreceive
  | case6 w s hroom s₁ hawait s₂ hreceive =>
      rw [readInto, if_neg hroom, hr.await, hawait]
      simp only [hr.receive, hreceive]
  | case5 w s hroom s₁ hawait e s₂ hne hreceive =>
      rw [readInto, if_neg hroom, hr.await, hawait]
      simp only [hr.receive, hreceive]
  | case7 w s hroom s₁ hawait b more s₂ hreceive got rest ih =>
      rw [readInto, if_neg hroom, hr.await, hawait]
      simp only [hr.receive, hreceive]
      rw [ih]

theorem readPayload_ignores (hr : r.Ignores f) (timeout : Int) (length got : Nat) (s : σ) :
    readPayload r timeout length got (f s) =
      ((readPayload r timeout length got s).1, f (readPayload r timeout length got s).2) := by
  fun_induction readPayload r timeout length got s with
  | case1 got s hgot chunk intake b hstop =>
      simp only [intake, chunk] at hstop
      rw [readPayload, if_pos hgot]
      simp only [readInto_ignores hr, hstop, intake, chunk]
  | case2 got s hgot chunk intake hstop rest s₁ hrest ih
  | case3 got s hgot chunk intake hstop b s₁ hrest ih =>
      rw [hrest] at ih
      simp only [intake, chunk] at hstop ih
      rw [readPayload, if_pos hgot]
      simp only [readInto_ignores hr, hstop, ih, intake, chunk]
  | case4 got s hgot => rw [readPayload, if_neg hgot]

theorem readFrame_ignores (hr : r.Ignores f) (limits : FrameLimits) (s : σ) :
    readFrame r limits (f s) = ((readFrame r limits s).1, f (readFrame r limits s).2) := by
  simp only [readFrame, readExact, readInto_ignores hr]
  split
  · rfl
  · split
    · next hmax => simp only [hmax, if_true]
    · next hmax =>
        rcases hpayload : readPayload r limits.timeout _ 0
          (readInto r limits.timeout Header.size (.whole Header.size) s).stream with ⟨data | b, s₁⟩
        <;> simp only [hmax, if_false, readPayload_ignores hr, hpayload]

end Reading

namespace Paced

variable {r : Receiver σ} {f : σ → σ} {perform : ε → σ → Option ε × σ}

theorem catchUp_ignores
    (hperform : ∀ event s, perform event (f s) = ((perform event s).1, f (perform event s).2))
    (coming : List (Nat × ε)) :
    ∀ s, catchUp perform (f s) coming =
      { catchUp perform s coming with now := f (catchUp perform s coming).now } := by
  induction coming with
  | nil => exact fun s => rfl
  | cons event later ih =>
      obtain ⟨delay, event⟩ := event
      intro s
      cases delay with
      | succ delay => rfl
      | zero =>
          rw [catchUp, catchUp, hperform]
          cases hnext : perform event s with
          | mk left s₁ =>
              cases left with
              | none => exact ih s₁
              | some left => rfl

theorem wait_ignores (hr : r.Ignores f)
    (hperform : ∀ event s, perform event (f s) = ((perform event s).1, f (perform event s).2))
    (coming : List (Nat × ε)) :
    ∀ timeout s, wait r perform timeout (f s) coming =
      let out := wait r perform timeout s coming
      (out.1, { out.2 with now := f out.2.now }) := by
  induction coming with
  | nil =>
      intro timeout s
      rw [wait, hr.wait]
      rfl
  | cons event later ih =>
      obtain ⟨delay, event⟩ := event
      intro timeout s
      rw [wait, wait, hr.wait]
      cases hwait : r.wait timeout s with
      | mk outcome s₁ =>
          cases outcome with
          | ready | failed => simp only [catchUp_ignores hperform]
          | expired =>
              simp only
              split
              · rw [hperform]
                cases hnext : perform event s₁ with
                | mk left s₂ =>
                    cases left with
                    | none => exact ih _ s₂
                    | some left => simp only [hr.wait]
              · rfl

theorem receive_ignores (hr : r.Ignores f)
    (hperform : ∀ event s, perform event (f s) = ((perform event s).1, f (perform event s).2))
    (blocks : σ → Bool) (hblocks : ∀ s, blocks (f s) = blocks s) (w : Window)
    (coming : List (Nat × ε)) :
    ∀ s, receive r perform blocks w (f s) coming =
      let out := receive r perform blocks w s coming
      (out.1, { out.2 with now := f out.2.now }) := by
  induction coming with
  | nil =>
      intro s
      rw [receive, hr.receive]
      rfl
  | cons event later ih =>
      obtain ⟨delay, event⟩ := event
      intro s
      rw [receive, receive, hr.receive]
      cases hreceive : r.receive w s with
      | mk answer s₁ =>
          by_cases hblocked : answer = .error .wouldBlock
          · subst hblocked
            simp only [hblocks, hperform]
            split
            · cases hnext : perform event s₁ with
              | mk left s₂ =>
                  cases left with
                  | none => exact ih s₂
                  | some left => simp only [hr.receive, catchUp_ignores hperform]
            · rfl
          · simp only [catchUp_ignores hperform]

end Paced

/-! ## The machine -/

/-- The style of a socket. -/
def Node.style? : Node → Option SocketStyle
  | .socket style => some style
  | _ => none

namespace Host

/-- The machine with other files. -/
def withFiles (h : Host) (t : FileTree) : Host :=
  { h with files := t }

/-- The machine with other files, and the program in a directory of those. -/
def withTree (h : Host) (t : FileTree) (d : NodeId) : Host :=
  { h with files := t, directory := d }

variable (h : Host) (t : FileTree) (d : NodeId)

theorem withFiles_eq : h.withFiles t = h.withTree t h.directory := rfl

theorem withTree_withTree (t' : FileTree) (d' : NodeId) :
    (h.withTree t d).withTree t' d' = h.withTree t' d' := rfl

theorem close_withTree (fd : Nat) : (h.withTree t d).close fd = (h.close fd).withTree t d := by
  simp only [close, withTree]
  split <;> rfl

theorem openSocket_withTree :
    (h.withTree t d).openSocket = (h.openSocket.1, h.openSocket.2.withTree t d) := by
  have hroom : (h.withTree t d).canOpen = h.canOpen := rfl
  rw [openSocket, openSocket, hroom]
  split <;> rfl

theorem receive_withTree (fd : Option Nat) (room : Nat) :
    (h.withTree t d).receive fd room =
      ((h.receive fd room).1, (h.receive fd room).2.withTree t d) := by
  have hhandle : (h.withTree t d).handle? fd = h.handle? fd := rfl
  have hchannels : (h.withTree t d).channels = h.channels := rfl
  rw [receive, receive, hhandle]
  split
  · rfl
  · rfl
  · rfl
  · rw [hchannels]
    split <;> rfl

theorem perform_withTree (act : Nat × PeerAct) :
    perform act (h.withTree t d) = ((perform act h).1, (perform act h).2.withTree t d) := by
  have hchannels : (h.withTree t d).channels = h.channels := rfl
  rw [perform, perform, hchannels]
  split <;> rfl

theorem stillReceiver_ignores (fd : Option Nat) :
    (stillReceiver fd).Ignores (·.withTree t d) where
  wait _ _ := rfl
  receive w h := receive_withTree h t d fd w.room

theorem receiver_ignores (fd : Option Nat) : (receiver fd).Ignores (·.withTree t d) where
  wait timeout h := by
    have hwait := Paced.wait_ignores (stillReceiver_ignores t d fd)
      (fun act h => perform_withTree h t d act) h.coming timeout h
    simp only [receiver, Receiver.paced, toPaced, ofPaced]
    rw [show (h.withTree t d).coming = h.coming from rfl, hwait]
    rfl
  receive w h := by
    have hreceive := Paced.receive_ignores (stillReceiver_ignores t d fd)
      (fun act h => perform_withTree h t d act) (·.blocks fd) (fun _ => rfl) w h.coming h
    simp only [receiver, Receiver.paced, toPaced, ofPaced]
    rw [show (h.withTree t d).coming = h.coming from rfl, hreceive]
    rfl

theorem catchUp_withTree : (h.withTree t d).catchUp = h.catchUp.withTree t d := by
  have hcatch := Paced.catchUp_ignores (fun act h => perform_withTree h t d act) h.coming h
  rw [catchUp, show (h.withTree t d).coming = h.coming from rfl, hcatch]
  rfl

theorem settle_withTree : (h.withTree t d).settle = h.settle.withTree t d := by
  suffices hfold : ∀ (coming : List (Nat × Nat × PeerAct)) (h : Host),
      coming.foldl (fun h act => h.updateChannel act.2.1 (·.after act.2.2)) (h.withTree t d) =
        (coming.foldl (fun h act => h.updateChannel act.2.1 (·.after act.2.2)) h).withTree t d by
    rw [settle, show (h.withTree t d).coming = h.coming from rfl, hfold h.coming h]
    rfl
  intro coming
  induction coming with
  | nil => exact fun h => rfl
  | cons act rest ih => exact fun h => ih (h.updateChannel act.2.1 (·.after act.2.2))

/-! ## What changes only files -/

theorem place_eq (path : Bytes) (node : Node) :
    h.place path node = h.withFiles (h.place path node).files := by
  simp only [place]
  split <;> rfl

theorem placeFile_eq (path data : Bytes) :
    h.placeFile path data = h.withFiles (h.placeFile path data).files := by
  simp only [placeFile]
  split
  · rfl
  · split <;> rfl
  · rfl

theorem remove_eq (path : Bytes) :
    (h.remove path).2 = h.withFiles (h.remove path).2.files := by
  simp only [remove]
  split
  case h_5 => split <;> rfl
  all_goals rfl

theorem renameTo_eq (id : NodeId) (old new : Slot) (there : Option NodeId) :
    (h.renameTo id old new there).2 = h.withFiles (h.renameTo id old new there).2.files := by
  simp only [renameTo]
  split
  · rfl
  · split
    · rfl
    · split
      · rfl
      · split <;> rfl

theorem rename_eq (source target : Bytes) :
    (h.rename source target).2 = h.withFiles (h.rename source target).2.files := by
  simp only [rename]
  split
  case h_4 =>
    split
    case h_3 | h_4 => exact h.renameTo_eq _ _ _ _
    all_goals rfl
  all_goals rfl

theorem append_eq (path data : Bytes) :
    h.append path data = h.withFiles (h.append path data).files := by
  simp only [append]
  split
  · rfl
  · split
    · rfl
    · split <;> rfl
    · rfl

theorem makeDirectory_eq (path : Bytes) :
    (h.makeDirectory path).2 = h.withFiles (h.makeDirectory path).2.files := by
  simp only [makeDirectory]
  split
  · rfl
  · rfl
  · split <;> rfl

theorem makeEach_eq (paths : List Bytes) :
    ∀ h : Host, (h.makeEach paths).2 = h.withFiles (h.makeEach paths).2.files := by
  induction paths with
  | nil => exact fun h => rfl
  | cons path rest ih =>
      intro h
      have hfirst := h.makeDirectory_eq path
      rw [makeEach]
      split
      · next h₁ hmake =>
          rw [hmake] at hfirst
          have hwith : ∀ t, h₁.withFiles t = h.withFiles t := by
            intro t
            rw [show h₁ = _ from hfirst]
            rfl
          rw [ih h₁, hwith]
          rfl
      · next h₁ hmake => rwa [hmake] at hfirst

theorem makeDirectories_eq (path : Bytes) :
    (h.makeDirectories path).2 = h.withFiles (h.makeDirectories path).2.files := by
  simp only [makeDirectories]
  split
  · rfl
  · split
    · rfl
    · rfl
    · split
      · rfl
      · split
        · rfl
        · exact makeEach_eq _ h

variable {h t d} {what : Happening}

/-- What has nothing to do with files does not depend on them. -/
theorem after_withTree_of_apart
    (hafter : (h.withTree t d).after what = (h.after what).withTree t d) :
    (h.withTree t d).after what =
      (h.after what).withTree ((h.withTree t d).after what).files d := by
  rw [hafter]
  rfl

/-- What changes only files leaves all else to be as on the other machine. -/
theorem after_withTree_of_files
    (hafter : ∀ h : Host, h.after what = h.withFiles (h.after what).files) :
    (h.withTree t d).after what =
      (h.after what).withTree ((h.withTree t d).after what).files d := by
  rw [hafter h, withFiles_eq, withTree_withTree]
  exact hafter (h.withTree t d)

/-- What happens does the same on a machine with other files, but to the files. -/
theorem after_withTree (h : Host) (t : FileTree) (d : NodeId) (what : Happening) :
    (h.withTree t d).after what =
      (h.after what).withTree ((h.withTree t d).after what).files d := by
  cases what with
  | channelAppears | peerActs | peerDrains | peerTakes | limitChanges => rfl
  | peerBegins channel plan =>
      exact after_withTree_of_apart (catchUp_withTree { h with
        coming := h.coming ++ plan.map fun act => (act.1, channel, act.2) } t d)
  | peersFinish => exact after_withTree_of_apart (settle_withTree h t d)
  | directoryAppears path => exact after_withTree_of_files fun h => h.makeDirectories_eq path
  | fileAppears path data =>
      refine after_withTree_of_files fun h => ?_
      simp only [after]
      split
      · exact h.placeFile_eq path data
      · have hmade := h.makeDirectories_eq (FilePath.parent path)
        rw [hmade]
        exact placeFile_eq _ path data
  | linkAppears path target =>
      refine after_withTree_of_files fun h => ?_
      simp only [after, placeLink]
      split
      · rfl
      · exact h.place_eq path _
  | deviceAppears path => exact after_withTree_of_files fun h => h.place_eq path .device
  | socketAppears path style =>
      cases htarget : (Address.ofPath path).target with
      | abstractName name =>
          refine after_withTree_of_apart ?_
          simp only [after, bindSocket, htarget]
          split <;> rfl
      | path bound =>
          refine after_withTree_of_files fun h => ?_
          simp only [after, bindSocket, htarget]
          split
          · rfl
          · exact h.place_eq bound _

/-! ## What is told of a path -/

/-- Why nothing is found at a path, or the style of the socket if there is one. -/
def outline (h : Host) (path : Bytes) : Except SystemError (Option SocketStyle) :=
  (h.status path).map Node.style?

theorem boundSocket_eq (h : Host) (a : Address) :
    h.boundSocket a =
      match a.target with
      | .abstractName name =>
          if h.abstractNames.contains (name, .stream) then .ok .stream
          else .error .connectionRefused
      | .path path =>
          match h.outline path with
          | .error e => .error e
          | .ok (some style) => .ok style
          | .ok none => .error .connectionRefused := by
  rw [boundSocket]
  cases a.target with
  | abstractName name => rfl
  | path path =>
      simp only [outline]
      cases h.status path with
      | error e => rfl
      | ok node => cases node <;> rfl

theorem canRead_eq (h : Host) (path : Bytes) :
    h.canRead path = (h.canOpen && match h.outline path with | .ok none => true | _ => false) := by
  rw [canRead, outline]
  cases h.status path with
  | error e => rfl
  | ok node => cases node <;> rfl

end Host

/-- The paths that a call asks about. -/
def Call.paths : Call → List Bytes
  | connect _ address =>
      match address.target with
      | .path path => [path]
      | .abstractName _ => []
  | canRead path => [path]
  | _ => []

namespace Host

variable {h : Host} {t : FileTree} {d : NodeId} {c : Call}

/-- A call comes out the same if the same is told of the paths that it asks about. -/
theorem perform_call_withTree
    (hsame : ∀ path ∈ c.paths, (h.withTree t d).outline path = h.outline path) :
    c.perform (h.withTree t d) = ((c.perform h).1, (c.perform h).2.withTree t d) := by
  cases c with
  | close fd => rw [Call.perform, Call.perform, close_withTree]
  | openSocket => exact openSocket_withTree h t d
  | readFrame fd limits => exact readFrame_ignores (receiver_ignores t d fd) limits h
  | canRead path =>
      rw [Call.perform, Call.perform, canRead_eq, canRead_eq, hsame path List.mem_cons_self]
      rfl
  | connect fd a =>
      have hbound : (h.withTree t d).boundSocket a = h.boundSocket a := by
        rw [boundSocket_eq, boundSocket_eq]
        cases htarget : a.target with
        | abstractName name => rfl
        | path path =>
            have hpath : path ∈ (Call.connect fd a).paths := by
              simp only [Call.paths, htarget, List.mem_cons_self]
            simp only [hsame path hpath]
      rw [Call.perform, Call.perform, connect, connect, hbound]
      split <;> rfl

/-- No call changes files. -/
theorem perform_call_eq (c : Call) (h : Host) :
    (c.perform h).2 = (c.perform h).2.withTree h.files h.directory := by
  have hsame := perform_call_withTree (c := c) (h := h) (t := h.files) (d := h.directory)
    fun _ _ => rfl
  exact congrArg Prod.snd hsame

theorem perform_call_files (c : Call) (h : Host) : (c.perform h).2.files = h.files := by
  rw [perform_call_eq]
  rfl

theorem perform_call_directory (c : Call) (h : Host) :
    (c.perform h).2.directory = h.directory := by
  rw [perform_call_eq]
  rfl

theorem perform_call_withFiles
    (hsame : ∀ path ∈ c.paths, (h.withFiles t).outline path = h.outline path) :
    c.perform (h.withFiles t) = ((c.perform h).1, (c.perform h).2.withFiles t) := by
  rw [withFiles_eq, perform_call_withTree hsame, withFiles_eq, perform_call_directory]

theorem after_directory (h : Host) (what : Happening) :
    (h.after what).directory = h.directory := by
  have hsame : h.after what = (h.after what).withTree (h.after what).files h.directory :=
    after_withTree h h.files h.directory what
  rw [hsame]
  rfl

theorem after_withFiles (h : Host) (t : FileTree) (what : Happening) :
    (h.withFiles t).after what = (h.after what).withFiles ((h.withFiles t).after what).files := by
  rw [withFiles_eq, withFiles_eq, after_directory]
  exact after_withTree h t h.directory what

/-- What is told of a path depends on nothing but the files and the directory. -/
theorem outline_congr {h' : Host} (hdirectory : h'.directory = h.directory)
    (hfiles : h'.files = h.files) (path : Bytes) :
    h'.outline path = h.outline path := by
  rw [outline, outline, status, status, hfiles, hdirectory]

end Host

/-! ## Actions -/

namespace Action

variable {α : Type}

/-- The paths that an action asks about. -/
def paths : Action α → Host → List Bytes
  | ended _, _ => []
  | noted _ rest, h => rest.paths h
  | asked c rest, h => c.paths ++ (rest (c.perform h).1).paths (c.perform h).2

theorem files_eq (action : Action α) : ∀ h : Host, (action h).host.files = h.files := by
  induction action with
  | ended value => exact fun h => rfl
  | noted note rest ih => exact ih
  | asked c rest ih =>
      intro h
      rw [perform, ih, Host.perform_call_files]

theorem directory_eq (action : Action α) :
    ∀ h : Host, (action h).host.directory = h.directory := by
  induction action with
  | ended value => exact fun h => rfl
  | noted note rest ih => exact ih
  | asked c rest ih =>
      intro h
      rw [perform, ih, Host.perform_call_directory]

end Action

end DaemonLink
