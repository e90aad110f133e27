import DaemonLink.Host.FileTree
import DaemonLink.Table

/-!
# Walks through a tree that changes

A walk goes along names through directories and links, and what is behind them
decides where it ends. A program that makes, renames and removes files changes
the tree it walks through next. Its walks must not be led elsewhere by that.

They are not, because a walk that goes on behind a name goes through a directory
or a link, and the names the program works on stand for neither. So trees are
compared by what is the same in both: everything except what these names stand
for in their directory, and what is in files. The operations change no more than
that, and a walk to a directory is the same in two such trees.
-/

namespace DaemonLink

/-! ## The text of a path -/

namespace FilePath

theorem split_ne_nil (path : Bytes) : split path ≠ [] := by
  cases path with
  | nil => nofun
  | cons b rest =>
      rw [split]
      split
      · nofun
      · split <;> nofun

theorem split_name {name : Bytes} (h : slash ∉ name) : split name = [name] := by
  induction name with
  | nil => rfl
  | cons b rest ih =>
      obtain ⟨hb, hrest⟩ := not_or.mp (fun hmem => h (List.mem_cons.mpr hmem))
      rw [split, if_neg fun heq => hb heq.symm, ih hrest]

theorem split_slash (front rest : Bytes) :
    split (front ++ slash :: rest) = split front ++ split rest := by
  induction front with
  | nil => exact if_pos rfl
  | cons b front ih =>
      rw [List.cons_append, split, split, ih]
      split
      · rfl
      · obtain ⟨first, more, hsplit⟩ := List.exists_cons_of_ne_nil (split_ne_nil front)
        rw [hsplit]
        rfl

/-- The names before the last slash of a path that ends with one. -/
def stepsBefore (front : Bytes) : List Bytes :=
  (split front).filter fun name => !name.isEmpty

theorem steps_name {front name : Bytes} (hfront : front = [] ∨ front.getLast? = some slash)
    (hne : name ≠ []) (hname : slash ∉ name) :
    steps (front ++ name) = stepsBefore front ++ [name] := by
  have hlast : endsInSlash (front ++ name) = false := by
    rw [endsInSlash, List.getLast?_append, List.getLast?_eq_some_getLast hne, Option.some_or]
    refine beq_eq_false_iff_ne.mpr fun hslash => hname ?_
    rw [Option.some.injEq] at hslash
    rw [← hslash]
    exact List.getLast_mem hne
  have hkept : ([name] : List Bytes).filter (fun name => !name.isEmpty) = [name] := by
    simp [hne]
  rw [steps, hlast]
  rcases hfront with rfl | hfront
  · rw [List.nil_append, split_name hname, hkept]
    rfl
  · obtain ⟨shorter, rfl⟩ := List.getLast?_eq_some_iff.mp hfront
    have hbefore : stepsBefore (shorter ++ [slash]) =
        (split shorter).filter fun name => !name.isEmpty := by
      rw [stepsBefore, split_slash, List.filter_append]
      exact List.append_nil _
    rw [hbefore, List.append_assoc, List.singleton_append, split_slash, List.filter_append,
      split_name hname, hkept]
    exact List.append_nil _

end FilePath

/-! ## Walks -/

namespace FileTree

variable {t t' u : FileTree} {d : NodeId} {Named : Bytes → Prop}

/-- What a name stands for in a directory. -/
def child? (t : FileTree) (d : NodeId) (name : Bytes) : Option NodeId :=
  match t.get? d with
  | some (.directory _ listing) => listing.lookup name
  | _ => none

/-- A name that is looked up where a walk comes upon it. -/
def Ordinary (name : Bytes) : Prop :=
  name ≠ FilePath.dot ∧ name ≠ FilePath.dotDot ∧ name.length ≤ maxNameLength

/-- With so many links to follow, these names lead from one directory to another,
and leave so many links. -/
inductive Leads (t : FileTree) : Nat → NodeId → List Bytes → Nat → NodeId → Prop
  | here {links id} : Leads t links id [] links id
  | dot {links here above listing rest left dest}
      (hhere : t.get? here = some (.directory above listing))
      (hrest : Leads t links here rest left dest) :
      Leads t links here (FilePath.dot :: rest) left dest
  | dotDot {links here above listing rest left dest}
      (hhere : t.get? here = some (.directory above listing))
      (hrest : Leads t links above rest left dest) :
      Leads t links here (FilePath.dotDot :: rest) left dest
  | link {links here name next target rest left dest} (hname : Ordinary name)
      (hentry : t.child? here name = some next) (hnext : t.get? next = some (.link target))
      (htarget : target ≠ [])
      (hrest : Leads t links (if FilePath.isAbsolute target then root else here)
        (FilePath.steps target ++ rest) left dest) :
      Leads t (links + 1) here (name :: rest) left dest
  | directory {links here name next above listing rest left dest} (hname : Ordinary name)
      (hentry : t.child? here name = some next)
      (hnext : t.get? next = some (.directory above listing))
      (hrest : Leads t links next rest left dest) :
      Leads t links here (name :: rest) left dest

theorem child?_eq_some {name : Bytes} {next : NodeId} (h : t.child? d name = some next) :
    ∃ above listing,
      t.get? d = some (.directory above listing) ∧ listing.lookup name = some next := by
  rw [child?] at h
  split at h
  · next above listing hd => exact ⟨above, listing, hd, h⟩
  · cases h

section Steps

variable {follow : Bool} {links : Nat} {here next : NodeId} {slot : Option Slot} {name : Bytes}
  {rest : List Bytes}

theorem walk_entry (hname : Ordinary name) (hentry : t.child? here name = some next)
    (hnext : ∀ target, t.get? next ≠ some (.link target)) :
    t.walk follow links here slot (name :: rest) =
      t.walk follow links next (some ⟨here, name⟩) rest := by
  obtain ⟨hdot, hdotDot, hlength⟩ := hname
  obtain ⟨above, listing, hhere, hlookup⟩ := child?_eq_some hentry
  rw [walk.eq_def]
  simp only [hhere, hdot, hdotDot, if_neg (Nat.not_lt.mpr hlength), hlookup, if_false]

theorem walk_link (hname : Ordinary name) (hentry : t.child? here name = some next)
    {target : Bytes} (hnext : t.get? next = some (.link target)) (htarget : target ≠ [])
    (hrest : rest ≠ [] ∨ follow = true) :
    t.walk follow (links + 1) here slot (name :: rest) =
      t.walk follow links (if FilePath.isAbsolute target then root else here) none
        (FilePath.steps target ++ rest) := by
  obtain ⟨hdot, hdotDot, hlength⟩ := hname
  obtain ⟨above, listing, hhere, hlookup⟩ := child?_eq_some hentry
  have hfollow : (rest.isEmpty && !follow) = false := by
    rcases hrest with hrest | rfl
    · rw [List.isEmpty_eq_false_iff.mpr hrest, Bool.false_and]
    · rw [Bool.not_true, Bool.and_false]
  rw [walk.eq_def]
  simp only [hhere, hdot, hdotDot, if_neg (Nat.not_lt.mpr hlength), hlookup, hnext, hfollow,
    List.isEmpty_eq_false_iff.mpr htarget, if_false, Bool.false_eq_true]

theorem walk_missing {above : NodeId} {listing : List (Bytes × NodeId)}
    (hhere : t.get? here = some (.directory above listing)) (hname : Ordinary name)
    (hentry : t.child? here name = none) :
    t.walk follow links here slot [name] = .ok (.free ⟨here, name⟩) := by
  obtain ⟨hdot, hdotDot, hlength⟩ := hname
  rw [child?, hhere] at hentry
  rw [walk.eq_def]
  simp only [hhere, hdot, hdotDot, if_neg (Nat.not_lt.mpr hlength), hentry, if_false,
    List.isEmpty_nil, if_true]

/-- Where a walk is that has come along such names, it goes on. -/
theorem Leads.walk {left : Nat} {dest : NodeId} {names : List Bytes}
    (h : t.Leads links here names left dest) (hrest : rest ≠ [] ∨ follow = true) :
    ∀ slot, ∃ slot', t.walk follow links here slot (names ++ rest) =
      t.walk follow left dest slot' rest := by
  induction h with
  | here => exact fun slot => ⟨slot, rfl⟩
  | dot hhere _ ih =>
      intro slot
      obtain ⟨slot', hwalk⟩ := ih none
      refine ⟨slot', ?_⟩
      rw [List.cons_append, FileTree.walk.eq_def]
      simp only [hhere, if_true]
      exact hwalk
  | dotDot hhere _ ih =>
      intro slot
      obtain ⟨slot', hwalk⟩ := ih none
      refine ⟨slot', ?_⟩
      have hne : FilePath.dotDot ≠ FilePath.dot := by decide
      rw [List.cons_append, FileTree.walk.eq_def]
      simp only [hhere, hne, if_false, if_true]
      exact hwalk
  | link hname hentry hnext htarget _ ih =>
      intro slot
      obtain ⟨slot', hwalk⟩ := ih none
      refine ⟨slot', ?_⟩
      rw [List.cons_append, walk_link hname hentry hnext htarget, ← List.append_assoc]
      · exact hwalk
      · exact hrest.imp_left fun hne => List.append_ne_nil_of_right_ne_nil _ hne
  | directory hname hentry hnext _ ih =>
      intro slot
      obtain ⟨slot', hwalk⟩ := ih (some ⟨_, _⟩)
      refine ⟨slot', ?_⟩
      rw [List.cons_append, walk_entry hname hentry]
      · exact hwalk
      · intro target htarget
        rw [hnext] at htarget
        cases htarget

end Steps

/-- A path the system takes as it is written. -/
theorem resolve_eq {path : Bytes} (hne : path ≠ []) (hclean : nul ∉ path)
    (hlength : path.length < pathLengthBound) (directory : NodeId) (follow : Bool) :
    t.resolve directory follow path =
      t.walk follow maxLinks (if FilePath.isAbsolute path then root else directory) none
        (FilePath.steps path) := by
  rw [resolve]
  simp only [untilNul_eq_self hclean, List.isEmpty_eq_false_iff.mpr hne,
    if_neg (Nat.not_le.mpr hlength), Bool.false_eq_true, if_false]

/-- A name in the root directory. -/
theorem resolve_root (name : Bytes) {id : NodeId} (hname : Ordinary name)
    (hclean : nul ∉ name ∧ slash ∉ name) (hne : name ≠ []) (hentry : t.child? root name = some id)
    (hlink : ∀ target, t.get? id ≠ some (.link target)) (directory : NodeId) (follow : Bool) :
    t.resolve directory follow (slash :: name) = .ok (.found id (some ⟨root, name⟩)) := by
  have hshort : (slash :: name).length < pathLengthBound := by
    have hlength : name.length ≤ 255 := hname.2.2
    have hbound : pathLengthBound = 4096 := rfl
    rw [List.length_cons]
    omega
  have hpath : nul ∉ slash :: name := by
    rw [List.mem_cons, not_or]
    exact ⟨by decide, hclean.1⟩
  have hfront : [slash] = [] ∨ [slash].getLast? = some slash := Or.inr rfl
  have hsteps : FilePath.steps (slash :: name) = [name] := FilePath.steps_name hfront hne hclean.2
  have hroot : FilePath.isAbsolute (slash :: name) = true := rfl
  rw [resolve_eq (List.cons_ne_nil _ _) hpath hshort, hsteps, hroot, if_pos rfl,
    walk_entry hname hentry hlink, walk]

/-! ## Trees that lead to the same directories -/

/-- Nothing is different between the trees except what is in files, and what
these names stand for in this directory. -/
structure Differs (t t' : FileTree) (d : NodeId) (Named : Bytes → Prop) : Prop where
  directory : ∀ {above listing}, t.get? d = some (.directory above listing) →
    ∃ listing', t'.get? d = some (.directory above listing')
  entries : ∀ name, ¬ Named name → t'.child? d name = t.child? d name
  others : ∀ id node, id ≠ d → t.get? id = some node → (∀ data, node ≠ .file data) →
    t'.get? id = some node

theorem Differs.trans (h : Differs t t' d Named) (h' : Differs t' u d Named) :
    Differs t u d Named where
  directory := by
    intro above listing hd
    obtain ⟨listing', hd'⟩ := h.directory hd
    exact h'.directory hd'
  entries := fun name hname => (h'.entries name hname).trans (h.entries name hname)
  others := fun id node hne hid hfile =>
    h'.others id node hne (h.others id node hne hid hfile) hfile

theorem Differs.still_directory (h : Differs t t' d Named) {id above : NodeId}
    {listing : List (Bytes × NodeId)} (hid : t.get? id = some (.directory above listing)) :
    ∃ listing', t'.get? id = some (.directory above listing') := by
  by_cases hd : id = d
  · subst hd
    exact h.directory hid
  · exact ⟨listing, h.others id _ hd hid fun _ => nofun⟩

/-- The named entries of the directory stand for files. -/
def NamesFiles (t : FileTree) (d : NodeId) (Named : Bytes → Prop) : Prop :=
  ∀ name, Named name → ∀ id, t.child? d name = some id → ∃ data, t.get? id = some (.file data)

theorem Differs.still_entry (h : Differs t t' d Named) (hnamed : t.NamesFiles d Named)
    {id next : NodeId} {name : Bytes} {node : Node} (hentry : t.child? id name = some next)
    (hnext : t.get? next = some node) (hfile : ∀ data, node ≠ .file data) :
    t'.child? id name = some next := by
  by_cases hd : id = d
  · subst hd
    have hname : ¬ Named name := fun hname => by
      obtain ⟨data, hdata⟩ := hnamed name hname next hentry
      rw [hnext] at hdata
      exact hfile data (Option.some.inj hdata)
    rw [h.entries name hname, hentry]
  · obtain ⟨above, listing, hid, hlookup⟩ := child?_eq_some hentry
    rw [child?, h.others id _ hd hid fun _ => nofun]
    exact hlookup

/-- Names that lead to a directory go on leading there. -/
theorem Differs.leads (h : Differs t t' d Named) (hnamed : t.NamesFiles d Named)
    (hd : ∃ above listing, t.get? d = some (.directory above listing))
    {links left : Nat} {here dest : NodeId} {names : List Bytes}
    (hleads : t.Leads links here names left dest) : t'.Leads links here names left dest := by
  induction hleads with
  | here => exact .here
  | dot hhere _ ih =>
      obtain ⟨listing', hhere'⟩ := h.still_directory hhere
      exact .dot hhere' ih
  | dotDot hhere _ ih =>
      obtain ⟨listing', hhere'⟩ := h.still_directory hhere
      exact .dotDot hhere' ih
  | link hname hentry hnext htarget _ ih =>
      refine .link hname (h.still_entry hnamed hentry hnext fun _ => nofun) ?_ htarget ih
      refine h.others _ _ ?_ hnext fun _ => nofun
      rintro rfl
      obtain ⟨above, listing, hdirectory⟩ := hd
      rw [hnext] at hdirectory
      cases hdirectory
  | directory hname hentry hnext _ ih =>
      obtain ⟨listing', hnext'⟩ := h.still_directory hnext
      exact .directory hname (h.still_entry hnamed hentry hnext fun _ => nofun) hnext' ih

/-! ## What the operations change -/

theorem get?_put {id : NodeId} {old : Node} (hold : t.get? id = some old) (node : Node)
    (n : NodeId) : (t.put id node).get? n = if n = id then some node else t.get? n := by
  have hsize : id < t.nodes.size := (Array.getElem?_eq_some_iff.mp hold).1
  rw [get?, put, Array.getElem?_setIfInBounds]
  by_cases hn : n = id
  · rw [if_pos hn.symm, if_pos hn, if_pos hsize]
  · rw [if_neg fun heq => hn heq.symm, if_neg hn, get?]

section Changes

variable {above : NodeId} {listing : List (Bytes × NodeId)}

theorem get?_relist (hd : t.get? d = some (.directory above listing))
    (f : List (Bytes × NodeId) → List (Bytes × NodeId)) (n : NodeId) :
    (t.relist d f).get? n = if n = d then some (.directory above (f listing)) else t.get? n := by
  rw [relist, hd]
  exact get?_put hd _ n

theorem child?_relist (hd : t.get? d = some (.directory above listing))
    (f : List (Bytes × NodeId) → List (Bytes × NodeId)) (name : Bytes) :
    (t.relist d f).child? d name = (f listing).lookup name := by
  rw [child?, get?_relist hd, if_pos rfl]

theorem child?_eq (hd : t.get? d = some (.directory above listing)) (name : Bytes) :
    t.child? d name = listing.lookup name := by
  rw [child?, hd]

theorem differs_relist (hd : t.get? d = some (.directory above listing))
    {f : List (Bytes × NodeId) → List (Bytes × NodeId)}
    (hf : ∀ name, ¬ Named name → (f listing).lookup name = listing.lookup name) :
    t.Differs (t.relist d f) d Named where
  directory := by
    intro above' listing' hd'
    rw [hd] at hd'
    cases hd'
    exact ⟨f listing, by rw [get?_relist hd, if_pos rfl]⟩
  entries := fun name hname => by rw [child?_relist hd, child?_eq hd, hf name hname]
  others := fun id node hne hid _ => by rw [get?_relist hd, if_neg hne, hid]

theorem differs_put (hd : t.get? d = some (.directory above listing)) {id : NodeId}
    {old : ByteArray} (hold : t.get? id = some (.file old)) (data : ByteArray) :
    t.Differs (t.put id (.file data)) d Named := by
  have hne : d ≠ id := by
    rintro rfl
    rw [hd] at hold
    cases hold
  have hstill : (t.put id (.file data)).get? d = t.get? d := by
    rw [get?_put hold, if_neg hne]
  refine ⟨fun hd' => ⟨_, by rw [hstill, hd']⟩, fun name _ => by rw [child?, hstill, child?], ?_⟩
  intro n node _ hn hfile
  rw [get?_put hold, if_neg, hn]
  rintro rfl
  rw [hold] at hn
  exact hfile old (Option.some.inj hn).symm

theorem get?_push {id : NodeId} {old : Node} (hold : t.get? id = some old) (node : Node) :
    (⟨t.nodes.push node⟩ : FileTree).get? id = some old := by
  have hsize : id < t.nodes.size := (Array.getElem?_eq_some_iff.mp hold).1
  rw [get?, Array.getElem?_push, if_neg (Nat.ne_of_lt hsize)]
  exact hold

theorem differs_push (hd : t.get? d = some (.directory above listing)) (node : Node) :
    t.Differs ⟨t.nodes.push node⟩ d Named where
  directory := fun hd' => ⟨_, get?_push hd' node⟩
  entries := fun name _ => by rw [child?_eq hd, child?_eq (get?_push hd node)]
  others := fun _ _ _ hid _ => get?_push hid node

variable {name : Bytes}

theorem child?_unlist (hd : t.get? d = some (.directory above listing)) (n : Bytes) :
    (t.unlist ⟨d, name⟩).child? d n = if n = name then none else t.child? d n := by
  rw [unlist, child?_relist hd, lookup_filter_ne, child?_eq hd]

theorem get?_unlist (hd : t.get? d = some (.directory above listing)) {n : NodeId} (hn : n ≠ d) :
    (t.unlist ⟨d, name⟩).get? n = t.get? n := by
  rw [unlist, get?_relist hd, if_neg hn]

theorem differs_unlist (hd : t.get? d = some (.directory above listing)) (hname : Named name) :
    t.Differs (t.unlist ⟨d, name⟩) d Named := by
  refine differs_relist hd fun n hn => ?_
  rw [lookup_filter_ne, if_neg]
  rintro rfl
  exact hn hname

theorem unlisted (hd : t.get? d = some (.directory above listing)) :
    (t.unlist ⟨d, name⟩).get? d =
      some (.directory above (listing.filter fun e => e.1 != name)) := by
  rw [unlist, get?_relist hd, if_pos rfl]

theorem child?_enlist (hd : t.get? d = some (.directory above listing)) (id : NodeId) (n : Bytes) :
    (t.enlist ⟨d, name⟩ id).child? d n = if n = name then some id else t.child? d n := by
  rw [enlist, child?_relist (unlisted hd), List.lookup_cons, ← child?_eq (unlisted hd),
    child?_unlist hd]
  by_cases hn : n = name
  · simp only [hn, beq_self_eq_true, if_true]
  · simp only [hn, beq_eq_false_iff_ne.mpr hn, if_false]

theorem get?_enlist (hd : t.get? d = some (.directory above listing)) (id : NodeId) {n : NodeId}
    (hn : n ≠ d) : (t.enlist ⟨d, name⟩ id).get? n = t.get? n := by
  rw [enlist, get?_relist (unlisted hd), if_neg hn, get?_unlist hd hn]

theorem differs_enlist (hd : t.get? d = some (.directory above listing)) (hname : Named name)
    (id : NodeId) : t.Differs (t.enlist ⟨d, name⟩ id) d Named := by
  refine (differs_unlist hd hname).trans (differs_relist (unlisted hd) fun n hn => ?_)
  rw [List.lookup_cons, beq_eq_false_iff_ne.mpr]
  rintro rfl
  exact hn hname

end Changes

end FileTree

end DaemonLink
