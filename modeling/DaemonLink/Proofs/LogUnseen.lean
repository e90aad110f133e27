import Mathlib.Logic.Relation
import DaemonLink.Action
import DaemonLink.Connection.Session
import DaemonLink.Proofs.FilesAside
import DaemonLink.Proofs.LogDirectory
import DaemonLink.Proofs.LogThreads

/-!
# A log that is not seen

A program shares its machine with the worker of its log, and can find out about it: by
a path of which something else is told once the worker has changed files. What it
changes are the files of the log, and all that can be there after such changes are told
here as trees, whatever the worker is about and however far it has come. Calls leave
them as they are, and a happening does to each what it does. A run does not see its log
if no path that it asks about is another matter on any of these trees.

That is so of every path that leads along directories and links to a name that is not
one of the log's, if the log is in a directory where its names stand for files. There
two trees differ in what these names stand for and in what is in files.
-/

namespace DaemonLink

/-! ## What the worker makes of files -/

/-- A change that the worker can make to the files of its log. -/
inductive LogOptions.Touches (o : LogOptions) : Host → Host → Prop
  | remove (h : Host) {i : Nat} (hi : i ≤ o.maxBackups.toNat) :
      o.Touches h (h.remove (slot o.path i)).2
  | rename (h : Host) {i j : Nat} (hi : i ≤ o.maxBackups.toNat) (hj : j ≤ o.maxBackups.toNat) :
      o.Touches h (h.rename (slot o.path i) (slot o.path j)).2
  | append (h : Host) (data : Bytes) : o.Touches h (h.append o.path data)

/-- The trees there can be in this directory if there can be these first, with the worker
at work. -/
inductive LogOptions.Makes (o : LogOptions) (d : NodeId) (T : FileTree → Prop) : FileTree → Prop
  | found {t : FileTree} (ht : T t) : o.Makes d T t
  | touched {h h' : Host} (hfile : o.toFile = true) (hd : h.directory = d)
      (hmade : o.Makes d T h.files) (htouched : o.Touches h h') : o.Makes d T h'.files

section Worker

variable {o : LogOptions} {h h' : Host} {d : NodeId} {T : FileTree → Prop}

theorem LogOptions.Touches.eq (htouched : o.Touches h h') : h' = h.withFiles h'.files := by
  cases htouched with
  | remove => exact h.remove_eq _
  | rename => exact h.rename_eq _ _
  | append => exact h.append_eq _ _

theorem shiftUp_touches (n : Nat) (hn : n + 1 ≤ o.maxBackups.toNat) (h : Host) :
    Relation.ReflTransGen o.Touches h (shiftUp Host.shelf o.path n h).2 := by
  induction n generalizing h with
  | zero => exact .refl
  | succ n ih =>
      have hlow := Nat.le_of_succ_le hn
      have hmoved : o.Touches h
          (Host.shelf.rename (generation o.path (n + 1)) (generation o.path (n + 2)) h).2 :=
        .rename h hlow hn
      rw [shiftUp]
      split
      · exact .refl
      · exact ih hlow h
      · split
        · next hrename =>
            rw [hrename] at hmoved
            exact .single hmoved
        · next hrename =>
            rw [hrename] at hmoved
            exact .head hmoved (ih hlow _)

theorem rotate_touches (h : Host) :
    Relation.ReflTransGen o.Touches h (rotate Host.shelf o.path o.maxBackups h).2 := by
  by_cases hnone : o.maxBackups ≤ 0
  · have hremoved : o.Touches h (Host.shelf.remove o.path h).2 :=
      .remove h (i := 0) (Nat.zero_le _)
    rw [rotate_none hnone]
    split <;>
      next hremove =>
        rw [hremove] at hremoved
        exact .single hremoved
  · obtain ⟨n, hn⟩ : ∃ n : Nat, o.maxBackups = n + 1 := ⟨o.maxBackups.toNat - 1, by omega⟩
    have hlast : n + 1 ≤ o.maxBackups.toNat := by omega
    have hremoved : o.Touches h (Host.shelf.remove (slot o.path (n + 1)) h).2 := .remove h hlast
    rw [rotate_some hn]
    split
    · next hremove =>
        rw [hremove] at hremoved
        exact .single hremoved
    · next h₁ hremove =>
        rw [hremove] at hremoved
        have hshifted := shiftUp_touches n hlast h₁
        split
        · next hshift =>
            rw [hshift] at hshifted
            exact .head hremoved hshifted
        · next h₂ hshift =>
            rw [hshift] at hshifted
            have hrenamed : o.Touches h₂ (Host.shelf.rename o.path (slot o.path 1) h₂).2 :=
              .rename h₂ (i := 0) (Nat.zero_le _) (by omega)
            split <;>
              next hrename =>
                rw [hrename] at hrenamed
                exact (Relation.ReflTransGen.head hremoved hshifted).tail hrenamed

theorem rotateIfFull_touches (h : Host) :
    Relation.ReflTransGen o.Touches h (rotateIfFull Host.shelf o h).2 := by
  rw [rotateIfFull]
  split
  · exact .refl
  split
  · exact .refl
  · exact .refl
  split
  · exact .refl
  split
  · exact rotate_touches h
  · exact .refl

/-- Whatever becomes of a record, the files are touched and nothing else. -/
theorem writeRecord_touches (o : LogOptions) (r : Record) (h : Host) :
    Relation.ReflTransGen o.Touches h (writeRecord Host.shelf o r h).2 := by
  have hrotated := rotateIfFull_touches (o := o) h
  rw [writeRecord]
  split
  · exact .refl
  split
  · next h₁ hrotate =>
      rw [hrotate] at hrotated
      exact hrotated.tail (.append h₁ r.render)
  · next hrotate =>
      rw [hrotate] at hrotated
      exact hrotated

namespace LogOptions.Makes

theorem touched_all (hfile : o.toFile = true) (hmade : o.Makes h.directory T h.files)
    (htouched : Relation.ReflTransGen o.Touches h h') :
    ∃ t, h' = h.withFiles t ∧ o.Makes h.directory T t := by
  induction htouched with
  | refl => exact ⟨h.files, rfl, hmade⟩
  | tail _ hlast ih =>
      obtain ⟨t, rfl, ht⟩ := ih
      exact ⟨_, hlast.eq, .touched (h := h.withFiles t) hfile rfl ht hlast⟩

theorem writeRecord (hmade : o.Makes h.directory T h.files) (r : Record) :
    ∃ t, (writeRecord Host.shelf o r h).2 = h.withFiles t ∧ o.Makes h.directory T t := by
  cases hfile : o.toFile with
  | true => exact hmade.touched_all hfile (writeRecord_touches o r h)
  | false => exact ⟨h.files, writeRecord_unfiled Host.shelf hfile r h, hmade⟩

theorem bind {T' : FileTree → Prop} (hmakes : ∀ t, T' t → o.Makes d T t) {t : FileTree}
    (hmade : o.Makes d T' t) : o.Makes d T t := by
  induction hmade with
  | found ht => exact hmakes _ ht
  | touched hfile hd _ htouched ih => exact .touched hfile hd ih htouched

/-- Where no log file is kept nothing is made. -/
theorem of_unfiled {t : FileTree} (hfile : o.toFile = false) (hmade : o.Makes d T t) : T t := by
  cases hmade with
  | found ht => exact ht
  | touched hfiled =>
      rw [hfile] at hfiled
      cases hfiled

end LogOptions.Makes

end Worker

/-! ## What the program can notice -/

theorem Step.happen_or_program (a : Step) :
    (∃ what, a = .happen what) ∨ ∀ what, a ≠ .happen what := by
  cases a with
  | happen what => exact .inl ⟨what, rfl⟩
  | _ => exact .inr fun what ha => by cases ha

/-- What becomes of trees in a step. -/
def Step.trees (T : FileTree → Prop) (h : Host) : Step → FileTree → Prop
  | .happen what, t => ∃ t₀, T t₀ ∧ t = ((h.withFiles t₀).after what).files
  | _, t => T t

namespace Session

/-- The paths that a run asks about. -/
def paths (s : Session) : List Step → List Bytes
  | [] => []
  | a :: rest => (s.doing a).paths s.host ++ (s.step a).session.paths rest

/-- No path that the run asks about is another matter on one of the trees that there can be
at that time. -/
def Unseen (o : LogOptions) (T : FileTree → Prop) (s : Session) : List Step → Prop
  | [] => True
  | a :: rest =>
      (∀ path ∈ (s.doing a).paths s.host, ∀ t, o.Makes s.host.directory T t →
        (s.host.withFiles t).outline path = s.host.outline path) ∧
      (s.step a).session.Unseen o (a.trees (o.Makes s.host.directory T) s.host) rest

/-- The trees that there can be at the end of a run. -/
def trees (o : LogOptions) (T : FileTree → Prop) (s : Session) : List Step → FileTree → Prop
  | [] => o.Makes s.host.directory T
  | a :: rest => (s.step a).session.trees o (a.trees (o.Makes s.host.directory T) s.host) rest

variable {o : LogOptions} {T : FileTree → Prop} {s : Session} {a : Step}

theorem step_happen (s : Session) (what : Happening) :
    s.step (.happen what) = ⟨.nothing, { s with host := s.host.after what }, []⟩ := rfl

theorem step_program (s : Session) (hprogram : ∀ what, a ≠ .happen what) :
    s.step a = s.perform (s.doing a) := by
  cases a <;> first | rfl | exact absurd rfl (hprogram _)

theorem step_directory (s : Session) (a : Step) :
    (s.step a).session.host.directory = s.host.directory := by
  obtain ⟨what, rfl⟩ | hprogram := a.happen_or_program
  · exact Host.after_directory s.host what
  · rw [step_program s hprogram]
    exact Action.directory_eq _ _

theorem step_files (s : Session) (hprogram : ∀ what, a ≠ .happen what) :
    (s.step a).session.host.files = s.host.files := by
  rw [step_program s hprogram]
  exact Action.files_eq _ _

theorem trees_program (hprogram : ∀ what, a ≠ .happen what) (T : FileTree → Prop) (h : Host) :
    a.trees T h = T := by
  cases a <;> first | rfl | exact absurd rfl (hprogram _)

/-- Where no log file is kept there is one tree, and nothing to be seen. -/
theorem alone_of_unfiled (hfile : o.toFile = false) (steps : List Step) :
    ∀ (s : Session) (T : FileTree → Prop), (∀ t, T t → t = s.host.files) →
      s.Unseen o T steps ∧ ∀ t, s.trees o T steps t → t = (s.run steps).session.host.files := by
  induction steps with
  | nil => exact fun s T halone => ⟨trivial, fun t ht => halone t (ht.of_unfiled hfile)⟩
  | cons a rest ih =>
      intro s T halone
      have hstep : ∀ t, a.trees (o.Makes s.host.directory T) s.host t →
          t = (s.step a).session.host.files := by
        intro t ht
        obtain ⟨what, rfl⟩ | hprogram := a.happen_or_program
        · obtain ⟨t₀, ht₀, rfl⟩ := ht
          rw [halone t₀ (ht₀.of_unfiled hfile)]
          rfl
        · rw [trees_program hprogram] at ht
          rw [halone t (ht.of_unfiled hfile), step_files s hprogram]
      obtain ⟨hunseen, htrees⟩ := ih _ _ hstep
      refine ⟨⟨?_, hunseen⟩, htrees⟩
      intro path _ t ht
      rw [halone t (ht.of_unfiled hfile)]
      rfl

/-- If nothing else changes files, it is enough to look at the trees that the worker makes
of those there were at first. -/
theorem unseen_of_paths (steps : List Step) :
    ∀ (s : Session) (T' : FileTree → Prop), (∀ t, T' t → o.Makes s.host.directory T t) →
      (∀ what, .happen what ∈ steps → ∀ h : Host, (h.after what).files = h.files) →
      (∀ path ∈ s.paths steps, ∀ t, o.Makes s.host.directory T t →
        (s.host.withFiles t).outline path = s.host.outline path) →
      s.Unseen o T' steps := by
  induction steps with
  | nil => exact fun s T' _ _ _ => trivial
  | cons a rest ih =>
      intro s T' hmakes hleaves hpaths
      have hmade : ∀ t, o.Makes s.host.directory T' t → o.Makes s.host.directory T t :=
        fun t ht => ht.bind hmakes
      have hdirectory := s.step_directory a
      have hnext : (s.step a).session.host.files = s.host.files ∧
          ∀ t, a.trees (o.Makes s.host.directory T') s.host t → o.Makes s.host.directory T t := by
        obtain ⟨what, rfl⟩ | hprogram := a.happen_or_program
        · have hstill := hleaves what List.mem_cons_self
          refine ⟨hstill s.host, ?_⟩
          rintro t ⟨t₀, ht₀, rfl⟩
          rw [hstill]
          exact hmade t₀ ht₀
        · rw [trees_program hprogram]
          exact ⟨step_files s hprogram, hmade⟩
      obtain ⟨hfiles, htrees⟩ := hnext
      refine ⟨fun path hpath t ht => ?_, ih (s.step a).session _ ?_ ?_ ?_⟩
      · exact hpaths path (List.mem_append_left _ hpath) t (hmade t ht)
      · rw [hdirectory]
        exact htrees
      · exact fun what hwhat => hleaves what (List.mem_cons_of_mem _ hwhat)
      · intro path hpath t ht
        rw [hdirectory] at ht
        have hsame := hpaths path (List.mem_append_right _ hpath) t ht
        have hhere : ((s.step a).session.host.withFiles t).directory =
            (s.host.withFiles t).directory := hdirectory
        rw [Host.outline_congr hhere rfl, hsame, Host.outline_congr hdirectory hfiles]

end Session

/-! ## Trees with a log in them -/

namespace FileTree

variable {t t' u : FileTree} {d id : NodeId} {name : Bytes} {Named : Bytes → Prop}

/-- Besides, what is a file in the first tree is one in the second. -/
structure Varies (t t' : FileTree) (d : NodeId) (Named : Bytes → Prop) : Prop extends
    Differs t t' d Named where
  still_file : ∀ {id data}, t.get? id = some (.file data) → ∃ data', t'.get? id = some (.file data')

theorem Varies.refl (t : FileTree) (d : NodeId) (Named : Bytes → Prop) : t.Varies t d Named where
  directory hd := ⟨_, hd⟩
  entries _ _ := rfl
  others _ _ _ hid _ := hid
  still_file hid := ⟨_, hid⟩

theorem Varies.trans (h : t.Varies t' d Named) (h' : t'.Varies u d Named) : t.Varies u d Named where
  toDiffers := h.toDiffers.trans h'.toDiffers
  still_file hid := by
    obtain ⟨data, hdata⟩ := h.still_file hid
    exact h'.still_file hdata

/-- A node that is no link goes on telling the same of itself. -/
theorem Varies.still_node (h : t.Varies t' d Named)
    (hd : ∃ above listing, t.get? d = some (.directory above listing)) {node : Node}
    (hid : t.get? id = some node) (hlink : ∀ target, node ≠ .link target) :
    ∃ node', t'.get? id = some node' ∧ (∀ target, node' ≠ .link target) ∧
      node'.style? = node.style? := by
  cases node with
  | directory above listing =>
      obtain ⟨listing', hstill⟩ := h.still_directory hid
      exact ⟨_, hstill, fun _ => nofun, rfl⟩
  | file data =>
      obtain ⟨data', hstill⟩ := h.still_file hid
      exact ⟨_, hstill, fun _ => nofun, rfl⟩
  | link target => exact absurd rfl (hlink target)
  | socket | device =>
      have hother : id ≠ d := by
        rintro rfl
        obtain ⟨_, _, hdirectory⟩ := hd
        rw [hid] at hdirectory
        cases hdirectory
      exact ⟨_, h.others id _ hother hid fun _ => nofun, fun _ => nofun, rfl⟩

section Changes

variable {above : NodeId} {listing : List (Bytes × NodeId)}

theorem ne_of_file (hd : t.get? d = some (.directory above listing)) {data : ByteArray}
    (hid : t.get? id = some (.file data)) : id ≠ d := by
  rintro rfl
  rw [hd] at hid
  cases hid

theorem varies_unlist (hd : t.get? d = some (.directory above listing)) (hname : Named name) :
    t.Varies (t.unlist ⟨d, name⟩) d Named where
  toDiffers := differs_unlist hd hname
  still_file hid := ⟨_, (get?_unlist hd (ne_of_file hd hid)).trans hid⟩

theorem varies_enlist (hd : t.get? d = some (.directory above listing)) (hname : Named name)
    (id : NodeId) : t.Varies (t.enlist ⟨d, name⟩ id) d Named where
  toDiffers := differs_enlist hd hname id
  still_file hid := ⟨_, (get?_enlist hd id (ne_of_file hd hid)).trans hid⟩

theorem varies_push (hd : t.get? d = some (.directory above listing)) (node : Node) :
    t.Varies ⟨t.nodes.push node⟩ d Named where
  toDiffers := differs_push hd node
  still_file hid := ⟨_, get?_push hid node⟩

theorem varies_put (hd : t.get? d = some (.directory above listing)) {old : ByteArray}
    (hold : t.get? id = some (.file old)) (data : ByteArray) :
    t.Varies (t.put id (.file data)) d Named where
  toDiffers := differs_put hd hold data
  still_file {n old'} hn := by
    rw [get?_put hold]
    split
    · exact ⟨data, rfl⟩
    · exact ⟨old', hn⟩

theorem varies_add (hd : t.get? d = some (.directory above listing)) (hname : Named name)
    (node : Node) : t.Varies (t.add ⟨d, name⟩ node) d Named :=
  (varies_push hd node).trans (varies_enlist (get?_push hd node) hname _)

theorem varies_move (hd : t.get? d = some (.directory above listing)) {m n : Bytes}
    (hm : Named m) (hn : Named n) {data : ByteArray} (hid : t.get? id = some (.file data)) :
    t.Varies (t.move ⟨d, m⟩ ⟨d, n⟩ id) d Named := by
  have hmoved : ((t.unlist ⟨d, m⟩).enlist ⟨d, n⟩ id).get? id = some (.file data) := by
    rw [get?_enlist (unlisted hd) id (ne_of_file hd hid), get?_unlist hd (ne_of_file hd hid), hid]
  rw [move]
  simp only [hmoved]
  exact (varies_unlist hd hm).trans (varies_enlist (unlisted hd) hn id)

end Changes

end FileTree

/-! ## Paths that miss the log -/

namespace Host

variable {h w w' : Host} {o : LogOptions} {front name path : Bytes} {d dest : NodeId}
  {Named : Bytes → Prop} {t : FileTree} {names : List Bytes} {last : Bytes}
  {links i j : Nat}

/-- The path leads along directories and links to a name in the directory `dest`. There is
nothing under the name or a node that is no link, and in the directory `d` it is not one of
these names. -/
structure PassesBy (h : Host) (d : NodeId) (Named : Bytes → Prop) (path : Bytes)
    (names : List Bytes) (last : Bytes) (links : Nat) (dest : NodeId) : Prop where
  nonempty : path ≠ []
  clean : nul ∉ path
  short : path.length < FileTree.pathLengthBound
  steps : FilePath.steps path = names ++ [last]
  leads : h.files.Leads FileTree.maxLinks (h.wayTo path names).start names links dest
  directory : ∃ above listing, h.files.get? dest = some (.directory above listing)
  ordinary : FileTree.Ordinary last
  other : dest = d → ¬ Named last
  entry : ∀ id, h.files.child? dest last = some id →
    ∃ node, h.files.get? id = some node ∧ ∀ target, node ≠ .link target

/-- Whatever the names stand for, the same is told of the path. -/
theorem PassesBy.outline_eq (hpath : h.PassesBy d Named path names last links dest)
    (hvaries : h.files.Varies t d Named) (hnamed : h.files.NamesFiles d Named)
    (hd : ∃ above listing, h.files.get? d = some (.directory above listing)) :
    (h.withFiles t).outline path = h.outline path := by
  obtain ⟨above, listing, hdest⟩ := hpath.directory
  have hrest : [last] ≠ [] ∨ true = true := Or.inl (List.cons_ne_nil _ _)
  have hsame : t.child? dest last = h.files.child? dest last := by
    by_cases hhere : dest = d
    · rw [hhere]
      exact hvaries.entries last (hpath.other hhere)
    · have hstill : t.get? dest = some (.directory above listing) :=
        hvaries.others dest _ hhere hdest fun _ hfile => by cases hfile
      rw [FileTree.child?_eq hstill, FileTree.child?_eq hdest]
  obtain ⟨slot, hwalk⟩ := hpath.leads.walk hrest none
  obtain ⟨slot', hwalk'⟩ := (hvaries.leads hnamed hd hpath.leads).walk hrest none
  have hresolve : h.files.resolve h.directory true path =
      h.files.walk true links dest slot [last] := by
    rw [FileTree.resolve_eq hpath.nonempty hpath.clean hpath.short, hpath.steps, ← hwalk]
    rfl
  have hresolve' : t.resolve h.directory true path = t.walk true links dest slot' [last] := by
    rw [FileTree.resolve_eq hpath.nonempty hpath.clean hpath.short, hpath.steps, ← hwalk']
    rfl
  cases hid : h.files.child? dest last with
  | none =>
      obtain ⟨listing', hdest'⟩ := hvaries.still_directory hdest
      have hfree : h.status path = .error .noSuchEntry := by
        rw [status, hresolve, FileTree.walk_missing hdest hpath.ordinary hid]
      have hfree' : (h.withFiles t).status path = .error .noSuchEntry := by
        rw [status, withFiles, hresolve',
          FileTree.walk_missing hdest' hpath.ordinary (hsame.trans hid)]
      rw [outline, outline, hfree, hfree']
  | some id =>
      obtain ⟨node, hnode, hlink⟩ := hpath.entry id hid
      obtain ⟨node', hnode', hlink', hstyle⟩ := hvaries.still_node hd hnode hlink
      have hfound : h.status path = .ok node := by
        rw [status, hresolve, FileTree.walk_entry hpath.ordinary hid (by simp [hnode, hlink]),
          FileTree.walk]
        simp only [hnode]
      have hfound' : (h.withFiles t).status path = .ok node' := by
        rw [status, withFiles, hresolve', FileTree.walk_entry hpath.ordinary (hsame.trans hid)
          (by simp [hnode', hlink']), FileTree.walk]
        simp only [hnode']
      rw [outline, outline, hfound, hfound', Except.map, Except.map, hstyle]

/-! ## A log in a directory -/

/-- The log has its files in the directory `d`. -/
def KeepsLog (o : LogOptions) (front name : Bytes) (d : NodeId) (h : Host) : Prop :=
  h.files.Houses (h.wayTo o.path (FilePath.stepsBefore front))
    (h.wayTo o.directory (FilePath.steps o.directory)) d (o.Numbers name)

/-- The names are looked up as they are on a machine where files can be opened. -/
theorem KeepsLog.resolve_slot (hkeeps : w.KeepsLog o front name d) (hnamed : o.Named front name)
    (hi : i ≤ o.maxBackups.toNat) (follow : Bool) :
    w.files.resolve w.directory follow (slot o.path i) =
      .ok (match w.files.child? d (slot name i) with
        | none => .free ⟨d, slot name i⟩
        | some id => .found id (some ⟨d, slot name i⟩)) := by
  have hlog : { w with limit := none }.HousesLog o front name d := ⟨rfl, hkeeps⟩
  exact hlog.resolve_slot hnamed hi follow

/-- The machine still has the log there, and differs from what it was in no more than the
log's names and what is in files. -/
structure StillKeeps (o : LogOptions) (front name : Bytes) (d : NodeId) (h w : Host) : Prop where
  directory : w.directory = h.directory
  keeps : w.KeepsLog o front name d
  varies : h.files.Varies w.files d (o.Numbers name)

theorem StillKeeps.refl (hkeeps : h.KeepsLog o front name d) :
    h.StillKeeps o front name d h :=
  ⟨rfl, hkeeps, .refl h.files d _⟩

theorem KeepsLog.remove (hkeeps : w.KeepsLog o front name d) (hnamed : o.Named front name)
    (hi : i ≤ o.maxBackups.toNat) : StillKeeps o front name d w (w.remove (slot o.path i)).2 := by
  have hname : o.Numbers name (slot name i) := ⟨i, hi, rfl⟩
  obtain ⟨above, listing, hd⟩ := hkeeps.reaches.2
  cases hentry : w.files.child? d (slot name i) with
  | none =>
      simp only [Host.remove, hkeeps.resolve_slot hnamed hi, hentry]
      exact .refl hkeeps
  | some id =>
      obtain ⟨data, hdata⟩ := hkeeps.files _ hname id hentry
      have hremove : w.remove (slot o.path i) =
          (.ok (), { w with files := w.files.unlist ⟨d, slot name i⟩ }) := by
        simp only [Host.remove, hkeeps.resolve_slot hnamed hi, hentry, hdata]
        rfl
      rw [hremove]
      exact ⟨rfl, (hkeeps.unlist hname).1, FileTree.varies_unlist hd hname⟩

theorem KeepsLog.append (hkeeps : w.KeepsLog o front name d) (hnamed : o.Named front name)
    (data : Bytes) : StillKeeps o front name d w (w.append o.path data) := by
  have hname : o.Numbers name name := ⟨0, Nat.zero_le _, rfl⟩
  obtain ⟨above, listing, hd⟩ := hkeeps.reaches.2
  have hresolve := hkeeps.resolve_slot hnamed (Nat.zero_le _) true
  simp only [slot_zero] at hresolve
  rw [Host.append]
  split
  · exact .refl hkeeps
  · cases hentry : w.files.child? d name with
    | none =>
        simp only [hresolve, hentry]
        exact ⟨rfl, (hkeeps.add hname _).1, FileTree.varies_add hd hname _⟩
    | some id =>
        obtain ⟨old, hold⟩ := hkeeps.files _ hname id hentry
        simp only [hresolve, hentry, hold]
        exact ⟨rfl, (hkeeps.put hname hentry hold _).1, FileTree.varies_put hd hold _⟩

/-- A file is renamed over nothing or over a file. -/
theorem renameTo_file {id : NodeId} {data : ByteArray} (hid : w.files.get? id = some (.file data))
    (old new : Slot) {there : Option NodeId}
    (hthere : ∀ n, there = some n → ∃ data, w.files.get? n = some (.file data)) :
    w.renameTo id old new there =
      (.ok (), if there = some id then w else { w with files := w.files.move old new id }) := by
  rw [renameTo, hid]
  by_cases hsame : there = some id
  · simp only [hsame, if_true]
  · have hreplace : mayReplace (.file data) (there.bind w.files.get?) = .ok () := by
      cases there with
      | none => rfl
      | some n =>
          obtain ⟨data', hdata'⟩ := hthere n rfl
          rw [Option.bind_some, hdata']
          rfl
    simp only [hsame, hreplace, if_false]
    rfl

theorem KeepsLog.rename (hkeeps : w.KeepsLog o front name d) (hnamed : o.Named front name)
    (hi : i ≤ o.maxBackups.toNat) (hj : j ≤ o.maxBackups.toNat) :
    StillKeeps o front name d w (w.rename (slot o.path i) (slot o.path j)).2 := by
  have hname : o.Numbers name (slot name i) := ⟨i, hi, rfl⟩
  have hname' : o.Numbers name (slot name j) := ⟨j, hj, rfl⟩
  obtain ⟨above, listing, hd⟩ := hkeeps.reaches.2
  have hsource := hkeeps.resolve_slot hnamed hi false
  have htarget := hkeeps.resolve_slot hnamed hj false
  cases hentry : w.files.child? d (slot name i) with
  | none =>
      simp only [Host.rename, hsource, hentry]
      exact .refl hkeeps
  | some id =>
      obtain ⟨data, hdata⟩ := hkeeps.files _ hname id hentry
      have hmoved := FileTree.varies_move hd hname hname' hdata
      have hhouses := (hkeeps.move hname hname' hentry).1
      cases hthere : w.files.child? d (slot name j) with
      | none =>
          have hnothing : ∀ n, (none : Option NodeId) = some n →
              ∃ data, w.files.get? n = some (.file data) := by
            intro n hn
            cases hn
          have hrename := renameTo_file hdata ⟨d, slot name i⟩ ⟨d, slot name j⟩ hnothing
          simp only [Host.rename, hsource, htarget, hentry, hthere, hrename]
          exact ⟨rfl, hhouses, hmoved⟩
      | some there =>
          have hfile : ∀ n, some there = some n → ∃ data, w.files.get? n = some (.file data) := by
            intro n hn
            cases hn
            exact hkeeps.files _ hname' there hthere
          have hrename := renameTo_file hdata ⟨d, slot name i⟩ ⟨d, slot name j⟩ hfile
          simp only [Host.rename, hsource, htarget, hentry, hthere, hrename]
          split
          · exact .refl hkeeps
          · exact ⟨rfl, hhouses, hmoved⟩

theorem KeepsLog.touches (hkeeps : w.KeepsLog o front name d) (hnamed : o.Named front name)
    (htouched : o.Touches w w') : w.StillKeeps o front name d w' := by
  cases htouched with
  | remove hi => exact hkeeps.remove hnamed hi
  | rename hi hj => exact hkeeps.rename hnamed hi hj
  | append data => exact hkeeps.append hnamed data

/-- Whatever the worker does, the log stays where it is. -/
theorem KeepsLog.made (hkeeps : h.KeepsLog o front name d) (hnamed : o.Named front name)
    (hmade : o.Makes h.directory (· = h.files) t) :
    h.StillKeeps o front name d (h.withFiles t) := by
  induction hmade with
  | found ht =>
      rw [ht]
      exact .refl hkeeps
  | @touched w w' hfile hd hmade htouched ih =>
      have hw : w.KeepsLog o front name d := by
        have hsame := ih.keeps
        simp only [KeepsLog, wayTo, withFiles] at hsame ⊢
        rwa [hd]
      have hw' := hw.touches hnamed htouched
      refine ⟨rfl, ?_, ih.varies.trans hw'.varies⟩
      have hsame := hw'.keeps
      simp only [KeepsLog, wayTo, withFiles] at hsame ⊢
      rwa [hw'.directory, hd] at hsame

end Host

/-- A run that asks about no path but such as pass by the log does not see it. -/
theorem Session.unseen_of_passesBy {s : Session} {o : LogOptions} {front name : Bytes} {d : NodeId}
    (hnamed : o.Named front name) (hkeeps : s.host.KeepsLog o front name d) {steps : List Step}
    (hleaves : ∀ what, .happen what ∈ steps → ∀ h : Host, (h.after what).files = h.files)
    (hpaths : ∀ path ∈ s.paths steps, ∃ names last links dest,
      s.host.PassesBy d (o.Numbers name) path names last links dest) :
    s.Unseen o (· = s.host.files) steps := by
  refine unseen_of_paths steps s _ (fun t ht => .found ht) hleaves ?_
  intro path hpath t hmade
  obtain ⟨names, last, links, dest, hpasses⟩ := hpaths path hpath
  have hstill := hkeeps.made hnamed hmade
  exact hpasses.outline_eq hstill.varies hkeeps.files hkeeps.reaches.2

end DaemonLink
