import DaemonLink.Proofs.FileWalks
import DaemonLink.Proofs.LogRotation

/-!
# A log in a directory of the machine

The files of the machine do what a log asks of them if the log is in a directory
that is there, and its names stand for regular files of their own or for nothing.
What has to be shown is that they go on doing so. Every operation finds its file
by walking from the start, and an earlier operation leads no walk elsewhere as
long as the names of the log stand for files. So this is kept beside the way to
the directory: none of them becomes anything else, and no file gets two names.
-/

namespace DaemonLink

namespace FileTree

variable {t t' : FileTree} {d : NodeId} {Named : Bytes → Prop}

/-! ## A directory with a log in it -/

/-- The contents of the file that a name of the directory stands for. -/
def contents? (t : FileTree) (d : NodeId) (name : Bytes) : Option Bytes :=
  (t.child? d name).bind fun id =>
    match t.get? id with
    | some (.file data) => some data.data.toList
    | _ => none

/-- Where a walk starts, and the names it goes along. -/
structure Way where
  start : NodeId
  names : List Bytes

/-- The way leads to this directory. -/
def Reaches (t : FileTree) (way : Way) (dest : NodeId) : Prop :=
  (∃ links, t.Leads maxLinks way.start way.names links dest) ∧
    ∃ above listing, t.get? dest = some (.directory above listing)

/-- The first way leads to a directory in which the names stand for files of
their own or for nothing. The second way leads to some directory. -/
structure Houses (t : FileTree) (front directory : Way) (d : NodeId) (Named : Bytes → Prop) :
    Prop where
  reaches : t.Reaches front d
  opened : ∃ dest, t.Reaches directory dest
  files : t.NamesFiles d Named
  distinct : ∀ {m n id}, Named m → Named n → t.child? d m = some id → t.child? d n = some id → m = n

namespace Houses

variable {front directory : Way} {name : Bytes} {id : NodeId}

theorem of_differs (h : t.Houses front directory d Named) (hdiffers : t.Differs t' d Named)
    (hfiles : t'.NamesFiles d Named)
    (hdistinct : ∀ {m n id}, Named m → Named n → t'.child? d m = some id →
      t'.child? d n = some id → m = n) : t'.Houses front directory d Named := by
  have hstill : ∀ {way dest}, t.Reaches way dest → t'.Reaches way dest := by
    rintro way dest ⟨⟨links, hleads⟩, above, listing, hdest⟩
    obtain ⟨listing', hdest'⟩ := hdiffers.still_directory hdest
    exact ⟨⟨links, hdiffers.leads h.files h.reaches.2 hleads⟩, above, listing', hdest'⟩
  obtain ⟨dest, hdest⟩ := h.opened
  exact ⟨hstill h.reaches, ⟨dest, hstill hdest⟩, hfiles, hdistinct⟩

theorem ne_directory (h : t.Houses front directory d Named) (hname : Named name)
    (hentry : t.child? d name = some id) : id ≠ d := by
  obtain ⟨above, listing, hd⟩ := h.reaches.2
  obtain ⟨data, hdata⟩ := h.files name hname id hentry
  rintro rfl
  rw [hd] at hdata
  cases hdata

theorem contents?_none (hentry : t.child? d name = none) : t.contents? d name = none := by
  rw [contents?, hentry]
  rfl

theorem contents?_some {data : ByteArray} (hentry : t.child? d name = some id)
    (hdata : t.get? id = some (.file data)) : t.contents? d name = some data.data.toList := by
  rw [contents?, hentry, Option.bind_some, hdata]

theorem contents?_congr (hentry : t'.child? d name = t.child? d name)
    (hnodes : ∀ id, t.child? d name = some id → t'.get? id = t.get? id) :
    t'.contents? d name = t.contents? d name := by
  rw [contents?, contents?, hentry]
  cases he : t.child? d name with
  | none => rfl
  | some id => rw [Option.bind_some, Option.bind_some, hnodes id he]

theorem unlist (h : t.Houses front directory d Named) (hname : Named name) :
    (t.unlist ⟨d, name⟩).Houses front directory d Named ∧
      ∀ n, Named n → (t.unlist ⟨d, name⟩).contents? d n =
        if n = name then none else t.contents? d n := by
  obtain ⟨above, listing, hd⟩ := h.reaches.2
  have hentry : ∀ n, (t.unlist ⟨d, name⟩).child? d n = if n = name then none else t.child? d n :=
    child?_unlist hd
  have hstill : ∀ {n id}, (t.unlist ⟨d, name⟩).child? d n = some id → t.child? d n = some id := by
    intro n id hn
    rw [hentry] at hn
    split at hn
    · cases hn
    · exact hn
  have hnode : ∀ {n id}, Named n → t.child? d n = some id →
      (t.unlist ⟨d, name⟩).get? id = t.get? id :=
    fun hn hid => get?_unlist hd (h.ne_directory hn hid)
  refine ⟨h.of_differs (differs_unlist hd hname) ?_ ?_, ?_⟩
  · intro n hn id hid
    rw [hnode hn (hstill hid)]
    exact h.files n hn id (hstill hid)
  · exact fun hm hn hmid hnid => h.distinct hm hn (hstill hmid) (hstill hnid)
  · intro n hn
    split
    · next heq => exact contents?_none (by rw [hentry, if_pos heq])
    · next hne => exact contents?_congr (by rw [hentry, if_neg hne]) fun id hid => hnode hn hid

theorem put (h : t.Houses front directory d Named) (hname : Named name)
    (hentry : t.child? d name = some id) {old : ByteArray} (hold : t.get? id = some (.file old))
    (data : ByteArray) :
    (t.put id (.file data)).Houses front directory d Named ∧
      ∀ n, Named n → (t.put id (.file data)).contents? d n =
        if n = name then some data.data.toList else t.contents? d n := by
  obtain ⟨above, listing, hd⟩ := h.reaches.2
  have hentries : ∀ n, (t.put id (.file data)).child? d n = t.child? d n := by
    intro n
    rw [child?, get?_put hold, if_neg (h.ne_directory hname hentry).symm, child?]
  refine ⟨h.of_differs (differs_put hd hold data) ?_ ?_, ?_⟩
  · intro n hn id' hid
    rw [hentries] at hid
    rw [get?_put hold]
    split
    · exact ⟨data, rfl⟩
    · exact h.files n hn id' hid
  · intro m n id' hm hn hmid hnid
    rw [hentries] at hmid hnid
    exact h.distinct hm hn hmid hnid
  · intro n hn
    split
    · next heq =>
        rw [← heq, ← hentries] at hentry
        refine contents?_some hentry ?_
        rw [get?_put hold, if_pos rfl]
    · next hne =>
        refine contents?_congr (hentries n) fun id' hid => ?_
        rw [get?_put hold, if_neg]
        rintro rfl
        exact hne (h.distinct hn hname hid hentry)

/-- A file that no name stands for gets one. -/
theorem enlist (h : t.Houses front directory d Named) (hname : Named name) {data : ByteArray}
    (hdata : t.get? id = some (.file data)) (hfresh : ∀ n, Named n → t.child? d n ≠ some id) :
    (t.enlist ⟨d, name⟩ id).Houses front directory d Named ∧
      ∀ n, Named n → (t.enlist ⟨d, name⟩ id).contents? d n =
        if n = name then some data.data.toList else t.contents? d n := by
  obtain ⟨above, listing, hd⟩ := h.reaches.2
  have hid : id ≠ d := by
    rintro rfl
    rw [hd] at hdata
    cases hdata
  have hnew : (t.enlist ⟨d, name⟩ id).get? id = some (.file data) := by
    rw [get?_enlist hd id hid, hdata]
  have hentry : ∀ n, (t.enlist ⟨d, name⟩ id).child? d n =
      if n = name then some id else t.child? d n := child?_enlist hd id
  refine ⟨h.of_differs (differs_enlist hd hname id) ?_ ?_, ?_⟩
  · intro n hn id' hid'
    rw [hentry] at hid'
    split at hid'
    · cases hid'
      exact ⟨data, hnew⟩
    · rw [get?_enlist hd id (h.ne_directory hn hid')]
      exact h.files n hn id' hid'
  · intro m n id' hm hn hmid hnid
    rw [hentry] at hmid hnid
    split at hmid
    · next hmname =>
        cases hmid
        split at hnid
        · next hnname => rw [hmname, hnname]
        · exact absurd hnid (hfresh n hn)
    · split at hnid
      · cases hnid
        exact absurd hmid (hfresh m hm)
      · exact h.distinct hm hn hmid hnid
  · intro n hn
    split
    · next heq => exact contents?_some (by rw [hentry, if_pos heq]) hnew
    · next hne =>
        exact contents?_congr (by rw [hentry, if_neg hne]) fun id' hid' =>
          get?_enlist hd id (h.ne_directory hn hid')

theorem push (h : t.Houses front directory d Named) (node : Node) :
    (⟨t.nodes.push node⟩ : FileTree).Houses front directory d Named ∧
      ∀ n, Named n → (⟨t.nodes.push node⟩ : FileTree).child? d n = t.child? d n ∧
        (⟨t.nodes.push node⟩ : FileTree).contents? d n = t.contents? d n := by
  obtain ⟨above, listing, hd⟩ := h.reaches.2
  have hentry : ∀ n, (⟨t.nodes.push node⟩ : FileTree).child? d n = t.child? d n :=
    fun n => by rw [child?_eq (get?_push hd node), child?_eq hd]
  refine ⟨h.of_differs (differs_push hd node) ?_ ?_, fun n hn => ⟨hentry n, ?_⟩⟩
  · intro n hn id hid
    rw [hentry] at hid
    obtain ⟨data, hdata⟩ := h.files n hn id hid
    exact ⟨data, get?_push hdata node⟩
  · intro m n id hm hn hmid hnid
    rw [hentry] at hmid hnid
    exact h.distinct hm hn hmid hnid
  · refine contents?_congr (hentry n) fun id hid => ?_
    obtain ⟨data, hdata⟩ := h.files n hn id hid
    rw [get?_push hdata node, hdata]

theorem add (h : t.Houses front directory d Named) (hname : Named name) (data : ByteArray) :
    (t.add ⟨d, name⟩ (.file data)).Houses front directory d Named ∧
      ∀ n, Named n → (t.add ⟨d, name⟩ (.file data)).contents? d n =
        if n = name then some data.data.toList else t.contents? d n := by
  obtain ⟨hpushed, hsame⟩ := h.push (.file data)
  have hnew : (⟨t.nodes.push (.file data)⟩ : FileTree).get? t.nodes.size = some (.file data) :=
    Array.getElem?_push_size
  have hfresh : ∀ n, Named n →
      (⟨t.nodes.push (.file data)⟩ : FileTree).child? d n ≠ some t.nodes.size := by
    intro n hn hid
    rw [(hsame n hn).1] at hid
    obtain ⟨old, hold⟩ := h.files n hn _ hid
    exact absurd (Array.getElem?_eq_some_iff.mp hold).1 (Nat.lt_irrefl _)
  obtain ⟨hhouses, hcontents⟩ := hpushed.enlist hname hnew hfresh
  exact ⟨hhouses, fun n hn => by rw [FileTree.add, hcontents n hn, (hsame n hn).2]⟩

theorem move (h : t.Houses front directory d Named) {m n : Bytes} (hm : Named m) (hn : Named n)
    (hentry : t.child? d m = some id) :
    (t.move ⟨d, m⟩ ⟨d, n⟩ id).Houses front directory d Named ∧
      ∀ r, Named r → (t.move ⟨d, m⟩ ⟨d, n⟩ id).contents? d r =
        if r = n then t.contents? d m else if r = m then none else t.contents? d r := by
  obtain ⟨above, listing, hd⟩ := h.reaches.2
  obtain ⟨data, hdata⟩ := h.files m hm id hentry
  obtain ⟨hunlisted, hwithout⟩ := h.unlist hm
  have hid := h.ne_directory hm hentry
  have hstill : (t.unlist ⟨d, m⟩).get? id = some (.file data) := by
    rw [get?_unlist hd hid, hdata]
  have hfresh : ∀ r, Named r → (t.unlist ⟨d, m⟩).child? d r ≠ some id := by
    intro r hr hrid
    rw [child?_unlist hd] at hrid
    split at hrid
    · cases hrid
    · next hne => exact hne (h.distinct hr hm hrid hentry)
  obtain ⟨hhouses, hcontents⟩ := hunlisted.enlist hn hstill hfresh
  have hmove : t.move ⟨d, m⟩ ⟨d, n⟩ id = (t.unlist ⟨d, m⟩).enlist ⟨d, n⟩ id := by
    obtain ⟨above', listing', hd'⟩ := hunlisted.reaches.2
    have hmoved : ((t.unlist ⟨d, m⟩).enlist ⟨d, n⟩ id).get? id = some (.file data) := by
      rw [get?_enlist hd' id hid, hstill]
    rw [FileTree.move]
    simp only [hmoved]
  rw [hmove]
  refine ⟨hhouses, fun r hr => ?_⟩
  rw [hcontents r hr, hwithout r hr, contents?_some hentry hdata]

end Houses

end FileTree

/-! ## The files of the machine -/

theorem isDigit_of_mem_decimal {n : Nat} {b : UInt8} (h : b ∈ decimal n) :
    Numeral.isDigit b = true := by
  have hdigit : ∀ m < 10, Numeral.isDigit (digit m) = true := by decide
  fun_induction decimal n with
  | case1 n hsmall =>
      rw [List.mem_singleton.mp h]
      exact hdigit n hsmall
  | case2 n hlarge ih =>
      rcases List.mem_append.mp h with h | h
      · exact ih h
      · rw [List.mem_singleton.mp h]
        exact hdigit (n % 10) (Nat.mod_lt n (by decide))

theorem not_mem_slot {path : Bytes} {b : UInt8} (hpath : b ∉ path) (hdot : b ∉ text ".")
    (hdigit : Numeral.isDigit b = false) (i : Nat) : b ∉ slot path i := by
  cases i with
  | zero => exact hpath
  | succ i =>
      intro h
      rw [slot, generation, List.append_assoc, List.mem_append, List.mem_append] at h
      rcases h with h | h | h
      · exact hpath h
      · exact hdot h
      · rw [isDigit_of_mem_decimal h] at hdigit
        cases hdigit

theorem slot_ne_nil {path : Bytes} (h : path ≠ []) (i : Nat) : slot path i ≠ [] := by
  cases i with
  | zero => exact h
  | succ i =>
      rw [slot, generation, List.append_assoc]
      exact List.append_ne_nil_of_left_ne_nil h _

theorem isAbsolute_slot {path : Bytes} (h : path ≠ []) (i : Nat) :
    FilePath.isAbsolute (slot path i) = FilePath.isAbsolute path := by
  cases i with
  | zero => rfl
  | succ i =>
      obtain ⟨b, rest, rfl⟩ := List.exists_cons_of_ne_nil h
      rfl

theorem slot_append (front name : Bytes) (i : Nat) :
    slot (front ++ name) i = front ++ slot name i := by
  cases i with
  | zero => rfl
  | succ i => rw [slot, slot, generation, generation, List.append_assoc, List.append_assoc,
      List.append_assoc]

/-- The log has a name in a directory, and the system takes its path, those of the
files behind it and that of the log directory as they are written. -/
structure LogOptions.Named (o : LogOptions) (front name : Bytes) : Prop where
  path : o.path = front ++ name
  front : front = [] ∨ front.getLast? = some slash
  whole : slash ∉ name
  ordinary : ∀ i ≤ o.maxBackups.toNat, FileTree.Ordinary (slot name i)
  taken : ∀ i ≤ o.maxBackups.toNat, (slot o.path i).length < FileTree.pathLengthBound
  nonempty : name ≠ [] ∧ o.directory ≠ []
  clean : nul ∉ o.path ∧ nul ∉ o.directory
  directory : o.directory.length < FileTree.pathLengthBound

/-- A text of the log or of one of the files behind it, made from that of the log. -/
def LogOptions.Numbers (o : LogOptions) (log p : Bytes) : Prop :=
  ∃ i ≤ o.maxBackups.toNat, p = slot log i

namespace Host

/-- The contents of the regular file a path leads to. -/
def contents? (h : Host) (path : Bytes) : Option Bytes :=
  match h.status path with
  | .ok (.file data) => some data.data.toList
  | _ => none

/-- Where a walk along a path goes. -/
def wayTo (h : Host) (path : Bytes) (names : List Bytes) : FileTree.Way :=
  ⟨if FilePath.isAbsolute path then FileTree.root else h.directory, names⟩

/-- Files can be opened, the log directory is there, and the log has its files in
the directory `d`. -/
structure HousesLog (h : Host) (o : LogOptions) (front name : Bytes) (d : NodeId) : Prop where
  canOpen : h.canOpen = true
  files : h.files.Houses (h.wayTo o.path (FilePath.stepsBefore front))
    (h.wayTo o.directory (FilePath.steps o.directory)) d (o.Numbers name)

variable {h : Host} {o : LogOptions} {front name : Bytes} {d : NodeId} {i : Nat}

theorem HousesLog.resolve_slot (hlog : h.HousesLog o front name d) (hnamed : o.Named front name)
    (hi : i ≤ o.maxBackups.toNat) (follow : Bool) :
    h.files.resolve h.directory follow (slot o.path i) =
      .ok (match h.files.child? d (slot name i) with
        | none => .free ⟨d, slot name i⟩
        | some id => .found id (some ⟨d, slot name i⟩)) := by
  have hname : slot name i ≠ [] := slot_ne_nil hnamed.nonempty.1 i
  have hpath : o.path ≠ [] := by
    rw [hnamed.path]
    exact List.append_ne_nil_of_right_ne_nil _ hnamed.nonempty.1
  have hsteps : FilePath.steps (slot o.path i) = FilePath.stepsBefore front ++ [slot name i] := by
    rw [hnamed.path, slot_append]
    exact FilePath.steps_name hnamed.front hname
      (not_mem_slot hnamed.whole (by decide) (by decide) i)
  have hclean : nul ∉ slot o.path i := not_mem_slot hnamed.clean.1 (by decide) (by decide) i
  rw [FileTree.resolve_eq (slot_ne_nil hpath i) hclean (hnamed.taken i hi), hsteps,
    isAbsolute_slot hpath]
  obtain ⟨⟨links, hleads⟩, above, listing, hd⟩ := hlog.files.reaches
  have hrest : [slot name i] ≠ [] ∨ follow = true := Or.inl (List.cons_ne_nil _ _)
  obtain ⟨slot', hwalk⟩ := hleads.walk hrest none
  simp only [wayTo] at hwalk
  rw [hwalk]
  cases hentry : h.files.child? d (slot name i) with
  | none => exact FileTree.walk_missing hd (hnamed.ordinary i hi) hentry
  | some id =>
      obtain ⟨data, hdata⟩ := hlog.files.files _ ⟨i, hi, rfl⟩ id hentry
      rw [FileTree.walk_entry (hnamed.ordinary i hi) hentry, FileTree.walk]
      intro target htarget
      rw [hdata] at htarget
      cases htarget

theorem HousesLog.status_slot (hlog : h.HousesLog o front name d) (hnamed : o.Named front name)
    (hi : i ≤ o.maxBackups.toNat) :
    (h.status (slot o.path i) = .error .noSuchEntry ∧
        h.files.child? d (slot name i) = none ∧ h.contents? (slot o.path i) = none) ∨
    ∃ id data, h.files.child? d (slot name i) = some id ∧ h.files.get? id = some (.file data) ∧
      h.status (slot o.path i) = .ok (.file data) ∧
      h.contents? (slot o.path i) = some data.data.toList := by
  have hresolve := hlog.resolve_slot hnamed hi true
  cases hentry : h.files.child? d (slot name i) with
  | none =>
      have hstatus : h.status (slot o.path i) = .error .noSuchEntry := by
        simp only [status, hresolve, hentry]
      exact Or.inl ⟨hstatus, rfl, by rw [contents?, hstatus]⟩
  | some id =>
      obtain ⟨data, hdata⟩ := hlog.files.files _ ⟨i, hi, rfl⟩ id hentry
      have hstatus : h.status (slot o.path i) = .ok (.file data) := by
        simp only [status, hresolve, hentry, hdata]
      exact Or.inr ⟨id, data, rfl, hdata, hstatus, by rw [contents?, hstatus]⟩

theorem HousesLog.contents?_slot (hlog : h.HousesLog o front name d) (hnamed : o.Named front name)
    (hi : i ≤ o.maxBackups.toNat) :
    h.contents? (slot o.path i) = h.files.contents? d (slot name i) := by
  rcases hlog.status_slot hnamed hi with ⟨-, hentry, hnone⟩ | ⟨id, data, hentry, hdata, -, hsome⟩
  · rw [hnone, FileTree.Houses.contents?_none hentry]
  · rw [hsome, FileTree.Houses.contents?_some hentry hdata]

/-- A file of the log has changed, and the machine is as it was apart from that. -/
theorem HousesLog.changed (hlog : h.HousesLog o front name d) (hnamed : o.Named front name)
    {t : FileTree} {contents : Option Bytes}
    (ht : t.Houses (h.wayTo o.path (FilePath.stepsBefore front))
        (h.wayTo o.directory (FilePath.steps o.directory)) d (o.Numbers name) ∧
      ∀ n, o.Numbers name n → t.contents? d n =
        if n = slot name i then contents else h.files.contents? d n) :
    { h with files := t }.HousesLog o front name d ∧
      ∀ q, o.Numbers o.path q → { h with files := t }.contents? q =
        if q = slot o.path i then contents else h.contents? q := by
  have hlog' : { h with files := t }.HousesLog o front name d := ⟨hlog.canOpen, ht.1⟩
  refine ⟨hlog', ?_⟩
  rintro q ⟨j, hj, rfl⟩
  rw [hlog'.contents?_slot hnamed hj, hlog.contents?_slot hnamed hj, ht.2 _ ⟨j, hj, rfl⟩]
  by_cases hij : j = i
  · rw [hij, if_pos rfl, if_pos rfl]
  · rw [if_neg (slot_ne hij), if_neg (slot_ne hij)]

theorem HousesLog.remove (hlog : h.HousesLog o front name d) (hnamed : o.Named front name)
    (hi : i ≤ o.maxBackups.toNat) :
    ∃ h', h.remove (slot o.path i) = (.ok (), h') ∧ h'.HousesLog o front name d ∧
      ∀ q, o.Numbers o.path q → h'.contents? q =
        if q = slot o.path i then none else h.contents? q := by
  have hresolve := hlog.resolve_slot hnamed hi false
  rcases hlog.status_slot hnamed hi with ⟨-, hentry, hnone⟩ | ⟨id, data, hentry, hdata, -, -⟩
  · refine ⟨h, by simp only [Host.remove, hresolve, hentry], hlog, fun q _ => ?_⟩
    split
    · next hq => rw [hq, hnone]
    · rfl
  · have hremove : h.remove (slot o.path i) =
        (.ok (), { h with files := h.files.unlist ⟨d, slot name i⟩ }) := by
      simp only [Host.remove, hresolve, hentry, hdata]
      rfl
    exact ⟨_, hremove, hlog.changed hnamed (hlog.files.unlist ⟨i, hi, rfl⟩)⟩

theorem HousesLog.append (hlog : h.HousesLog o front name d) (hnamed : o.Named front name)
    (hi : i ≤ o.maxBackups.toNat) (data : Bytes) :
    (h.append (slot o.path i) data).HousesLog o front name d ∧
      ∀ q, o.Numbers o.path q → (h.append (slot o.path i) data).contents? q =
        if q = slot o.path i then some ((h.contents? (slot o.path i)).getD [] ++ data)
        else h.contents? q := by
  have hresolve := hlog.resolve_slot hnamed hi true
  have hopen : (!h.canOpen) = false := by rw [hlog.canOpen]; rfl
  rcases hlog.status_slot hnamed hi with ⟨-, hentry, hnone⟩ | ⟨id, old, hentry, hdata, -, hsome⟩
  · have happend : h.append (slot o.path i) data =
        { h with files := h.files.add ⟨d, slot name i⟩ (.file ⟨data.toArray⟩) } := by
      simp only [Host.append, hopen, hresolve, hentry, Bool.false_eq_true, if_false]
      rfl
    rw [happend, hnone]
    exact hlog.changed hnamed (hlog.files.add ⟨i, hi, rfl⟩ _)
  · have happend : h.append (slot o.path i) data =
        { h with files := h.files.put id (.file (old ++ ⟨data.toArray⟩)) } := by
      simp only [Host.append, hopen, hresolve, hentry, hdata, Bool.false_eq_true, if_false]
    have hbytes : (old ++ (⟨data.toArray⟩ : ByteArray)).data.toList = old.data.toList ++ data := by
      rw [ByteArray.data_append, Array.toList_append]
    rw [happend, hsome, Option.getD_some, ← hbytes]
    exact hlog.changed hnamed (hlog.files.put ⟨i, hi, rfl⟩ hentry hdata _)

theorem HousesLog.rename (hlog : h.HousesLog o front name d) (hnamed : o.Named front name)
    {j : Nat} (hi : i ≤ o.maxBackups.toNat) (hj : j ≤ o.maxBackups.toNat)
    (hsource : (h.contents? (slot o.path i)).isSome)
    (htarget : h.contents? (slot o.path j) = none) :
    ∃ h', h.rename (slot o.path i) (slot o.path j) = (.ok (), h') ∧ h'.HousesLog o front name d ∧
      ∀ q, o.Numbers o.path q → h'.contents? q =
        if q = slot o.path j then h.contents? (slot o.path i)
        else if q = slot o.path i then none else h.contents? q := by
  have hfrom := hlog.resolve_slot hnamed hi false
  have hto := hlog.resolve_slot hnamed hj false
  rcases hlog.status_slot hnamed hi with ⟨-, -, hnone⟩ | ⟨id, data, hentry, hdata, -, hsome⟩
  · rw [hnone] at hsource
    cases hsource
  rcases hlog.status_slot hnamed hj with ⟨-, hfree, -⟩ | ⟨_, _, -, -, -, htaken⟩
  · have hrename : h.rename (slot o.path i) (slot o.path j) =
        (.ok (), { h with files := h.files.move ⟨d, slot name i⟩ ⟨d, slot name j⟩ id }) := by
      simp only [Host.rename, hfrom, hto, hentry, hfree, renameTo, hdata]
      rfl
    obtain ⟨hhouses, hcontents⟩ := hlog.files.move ⟨i, hi, rfl⟩ ⟨j, hj, rfl⟩ hentry
    have hlog' : ({ h with files := h.files.move ⟨d, slot name i⟩ ⟨d, slot name j⟩ id } :
        Host).HousesLog o front name d := ⟨hlog.canOpen, hhouses⟩
    refine ⟨_, hrename, hlog', ?_⟩
    rintro q ⟨k, hk, rfl⟩
    rw [hlog'.contents?_slot hnamed hk, hcontents _ ⟨k, hk, rfl⟩, hlog.contents?_slot hnamed hi,
      hlog.contents?_slot hnamed hk]
    simp only [slot_inj]
  · rw [htaken] at htarget
    cases htarget

/-- A directory that is there is made without any change. -/
theorem makeDirectories_there {path : Bytes} (hne : path ≠ []) (hclean : nul ∉ path)
    (hlength : path.length < FileTree.pathLengthBound)
    (hthere : ∃ dest, h.files.Reaches (h.wayTo path (FilePath.steps path)) dest) :
    h.makeDirectories path = (.ok (), h) := by
  obtain ⟨dest, ⟨links, hleads⟩, above, listing, hdest⟩ := hthere
  have hrest : ([] : List Bytes) ≠ [] ∨ true = true := Or.inr rfl
  obtain ⟨slot', hwalk⟩ := hleads.walk hrest none
  rw [List.append_nil, FileTree.walk] at hwalk
  have hstatus : h.status path = .ok (.directory above listing) := by
    simp only [wayTo] at hwalk
    rw [status, FileTree.resolve_eq hne hclean hlength]
    simp only [hwalk, hdest]
  rw [makeDirectories, hstatus]
  simp only [List.isEmpty_eq_false_iff.mpr hne, Bool.false_eq_true, if_false]

/-- The files of the machine do what is asked of them. -/
theorem shelf_reliable (hnamed : o.Named front name) :
    Host.shelf.Reliable contents? (o.Numbers o.path) fun h => ∃ d, h.HousesLog o front name d where
  pathExists := by
    rintro h _ ⟨d, hlog⟩ ⟨i, hi, rfl⟩
    show h.pathExists (slot o.path i) = _
    rcases hlog.status_slot hnamed hi with ⟨hstatus, -, hnone⟩ | ⟨_, _, -, -, hstatus, hsome⟩
    · rw [pathExists, hstatus, hnone]
      rfl
    · rw [pathExists, hstatus, hsome]
      rfl
  fileSize := by
    rintro h _ data ⟨d, hlog⟩ ⟨i, hi, rfl⟩ hdata
    show h.fileSize (slot o.path i) = _
    rcases hlog.status_slot hnamed hi with ⟨-, -, hnone⟩ | ⟨_, _, -, -, hstatus, hsome⟩
    · rw [hnone] at hdata
      cases hdata
    · rw [hsome] at hdata
      cases hdata
      rw [fileSize, hstatus]
      rfl
  remove := by
    rintro h _ ⟨d, hlog⟩ ⟨i, hi, rfl⟩
    obtain ⟨h', hremove, hlog', hcontents⟩ := hlog.remove hnamed hi
    exact ⟨h', hremove, ⟨d, hlog'⟩, hcontents⟩
  rename := by
    rintro h _ _ ⟨d, hlog⟩ ⟨i, hi, rfl⟩ ⟨j, hj, rfl⟩ hsource htarget
    obtain ⟨h', hrename, hlog', hcontents⟩ := hlog.rename hnamed hi hj hsource htarget
    exact ⟨h', hrename, ⟨d, hlog'⟩, hcontents⟩
  append := by
    rintro h _ ⟨d, hlog⟩ ⟨i, hi, rfl⟩ data
    obtain ⟨hlog', hcontents⟩ := hlog.append hnamed hi data
    exact ⟨⟨d, hlog'⟩, hcontents⟩

theorem HousesLog.makeDirectories (hlog : h.HousesLog o front name d)
    (hnamed : o.Named front name) : h.makeDirectories o.directory = (.ok (), h) :=
  makeDirectories_there hnamed.nonempty.2 hnamed.clean.2 hnamed.directory hlog.files.opened

/-- A log directory that is there is as good as one that is made. -/
theorem shelf_opens (hnamed : o.Named front name) (hlog : ∃ d, h.HousesLog o front name d) :
    Host.shelf.Opens contents? (o.Numbers o.path) (fun h => ∃ d, h.HousesLog o front name d)
      o.directory h := by
  obtain ⟨d, hlog⟩ := hlog
  exact ⟨h, hlog.makeDirectories hnamed, ⟨d, hlog⟩, fun _ _ => rfl⟩

/-! ## A log in the root directory -/

theorem named_root (hdirectory : o.directory = text "/") (hpath : o.path = text "/" ++ name)
    (hname : FileTree.Ordinary name) (hne : name ≠ []) (hwhole : slash ∉ name)
    (hclean : nul ∉ name) (hshort : name.length ≤ 250) (hfew : o.maxBackups ≤ 9) :
    o.Named (text "/") name := by
  -- behind the name there are at most a dot and a digit, so no name is a dot or two
  have hlength : ∀ i ≤ 9, (slot name i).length ≤ name.length + 2 ∧
      (0 < i → (slot name i).length = name.length + 2) := by
    intro i hi
    cases i with
    | zero => exact ⟨Nat.le_add_right _ _, nofun⟩
    | succ i =>
        have hbehind : (slot name (i + 1)).length = name.length + 2 := by
          rw [slot_digit (by omega), List.length_append, List.length_append]
          rfl
        exact ⟨Nat.le_of_eq hbehind, fun _ => hbehind⟩
  have hpos := List.length_pos_iff.mpr hne
  have hdirectoryClean : nul ∉ text "/" := by decide
  refine ⟨hpath, Or.inr (by decide), hwhole, ?_, ?_, ⟨hne, ?_⟩, ⟨?_, ?_⟩, ?_⟩
  · intro i hi
    cases i with
    | zero => exact hname
    | succ i =>
        obtain ⟨-, hbehind⟩ := hlength (i + 1) (by omega)
        have hbehind := hbehind (Nat.succ_pos _)
        refine ⟨fun h => ?_, fun h => ?_, ?_⟩
        · have hdot : FilePath.dot.length = 1 := rfl
          rw [h] at hbehind
          omega
        · have hdots : FilePath.dotDot.length = 2 := rfl
          rw [h] at hbehind
          omega
        · have hmost : FileTree.maxNameLength = 255 := rfl
          omega
  · intro i hi
    obtain ⟨hmost, -⟩ := hlength i (by omega)
    have hroot : (text "/").length = 1 := rfl
    have hbound : FileTree.pathLengthBound = 4096 := rfl
    rw [hpath, slot_append, List.length_append]
    omega
  · rw [hdirectory]
    decide
  · rw [hpath, List.mem_append, not_or]
    exact ⟨hdirectoryClean, hclean⟩
  · rw [hdirectory]
    exact hdirectoryClean
  · rw [hdirectory]
    decide

/-- A machine that has files of their own in its root directory, the log among them
or not. -/
theorem housesLog_root {nodes : Array Node} {above : NodeId}
    {listing : List (Bytes × NodeId)} (hdirectory : o.directory = text "/")
    (hpath : o.path = text "/" ++ name) (hroot : nodes[0]? = some (.directory above listing))
    (hfiles : ∀ entry ∈ listing, ∃ data, nodes[entry.2]? = some (.file data))
    (hdistinct : ∀ entry ∈ listing, ∀ other ∈ listing, entry.2 = other.2 → entry = other) :
    (new ⟨nodes⟩ 0).HousesLog o (text "/") name 0 := by
  have hentry : ∀ {n id}, (FileTree.mk nodes).child? 0 n = some id → (n, id) ∈ listing := by
    intro n id hid
    rw [FileTree.child?_eq hroot, List.lookup_eq_some_iff] at hid
    obtain ⟨before, after, rfl, -⟩ := hid
    exact List.mem_append_right _ List.mem_cons_self
  have habsolute : FilePath.isAbsolute o.path = true := by
    rw [hpath]
    rfl
  refine ⟨rfl, ⟨?_, ?_, fun n _ id hid => hfiles _ (hentry hid), ?_⟩⟩
  · rw [wayTo, habsolute]
    exact ⟨⟨_, .here⟩, _, _, hroot⟩
  · rw [hdirectory]
    exact ⟨0, ⟨_, .dot hroot .here⟩, _, _, hroot⟩
  · intro m n id _ _ hm hn
    have hsame := hdistinct _ (hentry hm) _ (hentry hn) rfl
    rw [Prod.mk.injEq] at hsame
    exact hsame.1

end Host

end DaemonLink
