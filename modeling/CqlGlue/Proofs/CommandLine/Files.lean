import CqlGlue.CommandLine.Run
import Mathlib.Data.List.DropRight

/-!
# Reading what was written

A path names the same place before and after the file there gets a new content, because the
directories on the way to it are untouched. So what is read from a path is what was written to it.
Opening a log makes directories and a file, and changes nothing that was there.

## Main definitions
* `FileSystem.IsWritable` says that a path names a file that may be written or a place for one.
* `FileSystem.LeavesOnly` says that a path got a content and nothing else happened.
* `FileSystem.KeepsFiles` says that no file has changed but one.

## Main statements
* `FileSystem.exists_write` says that a content can be written to every writable path, which leaves
  just that.
* `keepsFiles_openLog` says that opening a log keeps all files but the log.
-/

namespace CqlGlue.CommandLine

theorem ok_bind {ε α β : Type} (a : α) (f : α → Except ε β) : (Except.ok a >>= f) = f a := rfl

/-- What goes right in two steps goes right in each. -/
theorem exists_of_bind_eq_ok {ε α β : Type} {x : Except ε α} {f : α → Except ε β} {b : β}
    (h : x >>= f = .ok b) : ∃ a, x = .ok a ∧ f a = .ok b := by
  cases x with
  | error e => cases h
  | ok a => exact ⟨a, rfl, h⟩

/-- What a function is applied to has gone right. -/
theorem exists_of_map_eq_ok {ε α β : Type} {x : Except ε α} {f : α → β} {b : β}
    (h : x.map f = .ok b) : ∃ a, x = .ok a ∧ f a = b := by
  cases x with
  | error e => cases h
  | ok a => exact ⟨a, rfl, Except.ok.inj h⟩

/-- A text is read back from its bytes. -/
theorem textOf_toUTF8 (s : String) : textOf s.toUTF8 = .ok s := by
  have h : String.fromUTF8? s.toUTF8 = some s := by
    rw [String.fromUTF8?, String.toUTF8_eq_toByteArray, dif_pos s.isValidUTF8]
    rfl
  rw [textOf, h]

namespace FileSystem

variable {fs written made opened : FileSystem} {place origin other next : List String}
  {node : FileNode} {path : String} {content : ByteArray}

/-- A path names a file that may be written, or a place where nothing stands yet in a directory that
may be. -/
def IsWritable (fs : FileSystem) (path : String) : Prop :=
  ∃ place, fs.destination path = .ok place ∧
    (fs.node? place = none ∧ fs.permit .write place.dropLast = .ok () ∨
      ∃ node content, fs.node? place = some node ∧ node.base = .file content ∧
        fs.permit .write place = .ok ())

/-- The place of a path holds a content, which is read from the path unless that is refused. All
other places but one that is left out are as they were. -/
structure LeavesAt (fs : FileSystem) (but : Option (List String)) (path : String)
    (content : ByteArray) (written : FileSystem) (place : List String) : Prop where
  before : fs.destination path = .ok place
  after : written.destination path = .ok place
  file : ∃ node, written.node? place = some node ∧ node.base = .file content
  read : written.permit .read place = .ok () → written.read path = .ok content
  others : ∀ other, other ≠ place → some other ≠ but → written.node? other = fs.node? other

/-- A path has got a content, and nothing else happened but at a place that is left out. -/
def LeavesOnly (fs : FileSystem) (but : Option (List String)) (path : String)
    (content : ByteArray) (written : FileSystem) : Prop :=
  ∃ place, fs.LeavesAt but path content written place

/-- All places but one that is left out are as they were, or hold a directory where nothing was. -/
def KeepsFiles (fs : FileSystem) (but : Option (List String)) (after : FileSystem) : Prop :=
  ∀ place, some place ≠ but → after.node? place = fs.node? place ∨
    fs.node? place = none ∧ after.node? place = some .directory

/-! ## Nodes -/

theorem node?_put_self (hplace : place ≠ []) : (fs.put place node).node? place = some node := by
  cases place with
  | nil => exact absurd rfl hplace
  | cons name names => exact List.lookup_cons_self

theorem node?_put_of_ne (h : other ≠ place) : (fs.put place node).node? other = fs.node? other := by
  have hlookup : ∀ nodes : List (List String × FileNode),
      (nodes.filter (·.1 != place)).lookup other = nodes.lookup other := by
    intro nodes
    induction nodes with
    | nil => rfl
    | cons n nodes ih =>
      by_cases hn : n.1 = place
      · have hne : (other == n.1) = false := beq_false_of_ne (hn ▸ h)
        rw [List.filter_cons_of_neg (by simpa using hn), List.lookup_cons, hne, ih]
      · rw [List.filter_cons_of_pos (by simpa using hn), List.lookup_cons, List.lookup_cons, ih]
  cases other with
  | nil => rfl
  | cons name names =>
    have hne : (name :: names == place) = false := beq_false_of_ne h
    change List.lookup _ ((place, node) :: fs.nodes.filter (·.1 != place)) = List.lookup _ fs.nodes
    rw [List.lookup_cons, hne, hlookup]

theorem isDirectory_put_of_ne (h : other ≠ place) :
    (fs.put place node).isDirectory other = fs.isDirectory other := by
  rw [isDirectory, isDirectory, node?_put_of_ne h]

theorem permit_put_of_ne (h : other ≠ place) (access : Access) :
    (fs.put place node).permit access other = fs.permit access other := by
  rw [permit, permit, node?_put_of_ne h]

theorem isDirectory_of_node? (h : fs.node? place = some node) :
    fs.isDirectory place = node.isDirectory := by
  rw [isDirectory, h]
  rfl

theorem isDirectory_of_base (h : node.base = .file content) : node.isDirectory = false := by
  rw [FileNode.isDirectory, h]

theorem base_withContent (h : node.base = .file content) (other : ByteArray) :
    (node.withContent other).base = .file other := by
  induction node with
  | file _ => rfl
  | directory => cases h
  | sink => cases h
  | guarded refused reason node ih => exact ih h

/-! ## Paths -/

theorem follow_cons (fs : FileSystem) (origin : List String) (name : String) (names : List String) :
    fs.follow origin (name :: names) = fs.enter origin name >>= fun q => fs.follow q names :=
  rfl

theorem follow_append (fs : FileSystem) (origin : List String) (names more : List String) :
    fs.follow origin (names ++ more) = fs.follow origin names >>= fun q => fs.follow q more := by
  induction names generalizing origin with
  | nil => rfl
  | cons name names ih =>
    rw [List.cons_append, follow_cons, follow_cons, bind_assoc]
    exact bind_congr fun q => ih q

theorem isDirectory_of_enter {name : String} (h : fs.enter origin name = .ok other) :
    fs.isDirectory origin = true := by
  by_contra hnot
  rw [enter, if_pos (by simpa using hnot)] at h
  cases h

/-- A name leads where it led before, whatever is put at a place that is no directory. -/
theorem enter_put {name : String} (hplace : fs.isDirectory place = false)
    (h : fs.enter origin name = .ok other) :
    (fs.put place node).enter origin name = .ok other := by
  have hdirectory := isDirectory_of_enter h
  have hne : origin ≠ place := by
    rintro rfl
    exact Bool.false_ne_true (hplace.symm.trans hdirectory)
  have hsome : (fs.node? (origin ++ [name])).isSome →
      ((fs.put place node).node? (origin ++ [name])).isSome := by
    intro hsome
    by_cases hsame : origin ++ [name] = place
    · rw [hsame, node?_put_self (hsame ▸ by simp)]
      rfl
    · rwa [node?_put_of_ne hsame]
  rw [enter] at h ⊢
  rw [isDirectory_put_of_ne hne, permit_put_of_ne hne]
  grind

/-- The names that lead to a directory lead to it still when something is put at a place that is
none: no way leads on from such a place. -/
theorem follow_put {names : List String} (hplace : fs.isDirectory place = false)
    (h : fs.follow origin names = .ok other) :
    (fs.put place node).follow origin names = .ok other := by
  induction names generalizing origin with
  | nil => exact h
  | cons name names ih =>
    rw [follow_cons] at h ⊢
    obtain ⟨next, hnext, hrest⟩ := exists_of_bind_eq_ok h
    rw [enter_put hplace hnext]
    exact ih hrest

/-- What a path is made of whose place can get a content. -/
theorem exists_of_destination (h : fs.destination path = .ok place) :
    ∃ origin names name parent, fs.start path = .ok (origin, names ++ [name]) ∧
      (name ≠ "" ∧ name ≠ "." ∧ name ≠ ".." ∧ isTooLong name = false) ∧
      fs.follow origin names = .ok parent ∧ fs.isDirectory parent = true ∧
      fs.permit .search parent = .ok () ∧ place = parent ++ [name] := by
  obtain ⟨⟨origin, all⟩, hstart, h⟩ := exists_of_bind_eq_ok h
  obtain ⟨parent, hparent, h⟩ := exists_of_bind_eq_ok h
  rw [← List.rdropWhile] at hparent h
  generalize hnamed : List.rdropWhile (· == "") all = named at hparent h
  split at h
  · cases h
  rename_i hdirectory
  split at h
  · cases h
  rename_i name hlast
  obtain ⟨⟨⟩, hsearch, h⟩ := exists_of_bind_eq_ok h
  split at h
  · cases h
  rename_i hplain
  split at h
  · cases h
  rename_i hshort
  cases h
  simp only [Bool.or_eq_true, decide_eq_true_eq, beq_iff_eq, not_or, Nat.not_lt] at hplain
  obtain ⟨⟨hlength, hdot⟩, hdots⟩ := hplain
  -- nothing was cut off the end, so the last name is not empty
  have hsame : named = all := (hnamed ▸ List.rdropWhile_prefix _ all).eq_of_length_le hlength
  have hall : all = named.dropLast ++ [name] :=
    hsame ▸ (List.dropLast_append_getLast? _ hlast).symm
  have hempty : name ≠ "" := by
    have hkept := List.rdropWhile_eq_self_iff.1 (hnamed.trans hsame)
    have hgetLast := hkept (by simp [hall])
    simp only [hall, List.getLast_append_singleton] at hgetLast
    simpa using hgetLast
  exact ⟨origin, named.dropLast, name, parent, hall ▸ hstart,
    ⟨hempty, hdot, hdots, by simpa using hshort⟩, hparent, by simpa using hdirectory, hsearch, rfl⟩

/-- The place of a path is the same after something was put at a place that is no directory. -/
theorem destination_put (hother : fs.isDirectory other = false)
    (h : fs.destination path = .ok place) : (fs.put other node).destination path = .ok place := by
  obtain ⟨⟨origin, all⟩, hstart, h⟩ := exists_of_bind_eq_ok h
  obtain ⟨parent, hparent, h⟩ := exists_of_bind_eq_ok h
  have hne : parent ≠ other := by
    rintro rfl
    rw [hother] at h
    cases h
  have hstart' : (fs.put other node).start path = .ok (origin, all) := hstart
  rw [destination, hstart', ok_bind]
  simp only [follow_put hother hparent, ok_bind, isDirectory_put_of_ne hne, permit_put_of_ne hne]
  exact h

/-- What is read from a path is the content of the file there. -/
theorem read_of_destination (h : fs.destination path = .ok place)
    (hnode : fs.node? place = some node) (hbase : node.base = .file content)
    (hpermit : fs.permit .read place = .ok ()) : fs.read path = .ok content := by
  obtain ⟨origin, names, name, parent, hstart, ⟨hempty, hdot, hdots, hshort⟩, hparent, hdirectory,
    hsearch, rfl⟩ := exists_of_destination h
  have henter : fs.enter parent name = .ok (parent ++ [name]) := by
    rw [enter, hdirectory, hsearch, hnode]
    simp [hempty, hdot, hdots, hshort]
  have hfollow : fs.follow origin (names ++ [name]) = .ok (parent ++ [name]) := by
    rw [follow_append, hparent, ok_bind, follow_cons, henter]
    rfl
  rw [read, hstart, ok_bind]
  simp only [hfollow, ok_bind, hpermit, hnode, Option.map_some, hbase]

/-! ## Writing -/

/-- A file is opened where nothing is. -/
theorem openFile_of_none (h : fs.destination path = .ok place) (hnode : fs.node? place = none)
    (hpermit : fs.permit .write place.dropLast = .ok ()) :
    fs.openFile path = .ok (place, fs.put place (.file ByteArray.empty)) := by
  rw [openFile, h, ok_bind]
  simp only [hnode, hpermit, ok_bind]

/-- A file that is there is opened as it is. -/
theorem openFile_of_file (h : fs.destination path = .ok place) (hnode : fs.node? place = some node)
    (hbase : node.base = .file content) (hpermit : fs.permit .write place = .ok ()) :
    fs.openFile path = .ok (place, fs) := by
  rw [openFile, h, ok_bind]
  simp only [hnode, isDirectory_of_base hbase, hpermit, ok_bind]
  rfl

theorem store_of_base (hnode : fs.node? place = some node) (hbase : node.base = .file content)
    (other : ByteArray) : fs.store place other = fs.put place (node.withContent other) := by
  rw [store, hnode]
  simp only [hbase]

theorem put_put (fs : FileSystem) (place : List String) (node node' : FileNode) :
    (fs.put place node).put place node' = fs.put place node' := by
  simp [put]

variable {but : Option (List String)}

/-- A file with a content at a place that was no directory. -/
theorem leavesOnly_put (h : fs.destination path = .ok place) (hplace : fs.isDirectory place = false)
    (hbase : node.base = .file content) : fs.LeavesOnly but path content (fs.put place node) := by
  have hne : place ≠ [] := by
    obtain ⟨origin, names, name, parent, -, -, -, -, -, rfl⟩ := exists_of_destination h
    simp
  have hafter : (fs.put place node).destination path = .ok place := destination_put hplace h
  have hnode : (fs.put place node).node? place = some node := node?_put_self hne
  exact ⟨place, h, hafter, ⟨node, hnode, hbase⟩, read_of_destination hafter hnode hbase,
    fun other hother _ => node?_put_of_ne hother⟩

/-- A text is put behind that of a file, or nothing happens. -/
theorem append_eq (fs : FileSystem) (place : List String) (more : ByteArray) :
    fs.append place more = fs ∨ ∃ node node' content, fs.node? place = some node ∧
      node.base = .file content ∧ fs.append place more = fs.put place node' := by
  rw [append]
  split
  · rename_i content hfile
    obtain ⟨node, hnode, hbase⟩ := Option.map_eq_some_iff.1 hfile
    exact .inr ⟨node, _, content, hnode, hbase, store_of_base hnode hbase _⟩
  · exact .inl rfl

/-- What was written stays when a text is put behind that of another file. -/
theorem LeavesAt.append (h : fs.LeavesAt (some other) path content written place)
    (hne : place ≠ other) (more : ByteArray) :
    fs.LeavesAt (some other) path content (written.append other more) place := by
  rcases written.append_eq other more with heq | ⟨node, node', content', hnode, hbase, heq⟩
  · rwa [heq]
  · have hother : written.isDirectory other = false :=
      (isDirectory_of_node? hnode).trans (isDirectory_of_base hbase)
    have hafter : (written.put other node').destination path = .ok place :=
      destination_put hother h.after
    obtain ⟨file, hfile, hcontent⟩ := h.file
    have hfile' : (written.put other node').node? place = some file :=
      (node?_put_of_ne hne).trans hfile
    rw [heq]
    refine ⟨h.before, hafter, ⟨file, hfile', hcontent⟩,
      read_of_destination hafter hfile' hcontent, fun place' hplace' hbut => ?_⟩
    rw [node?_put_of_ne (by simpa using hbut)]
    exact h.others place' hplace' hbut

/-- A content can be written to every writable path, and that leaves just it. -/
theorem exists_write (h : fs.IsWritable path) (content : ByteArray) :
    ∃ written, fs.write path content = .ok written ∧
      fs.LeavesOnly but path content written := by
  obtain ⟨place, hdestination, ⟨hnode, hpermit⟩ | ⟨node, before, hnode, hbase, hpermit⟩⟩ := h
  · have hplace : fs.isDirectory place = false := by
      rw [isDirectory, hnode]
      rfl
    have hne : place ≠ [] := by
      rintro rfl
      cases hnode
    refine ⟨fs.put place (.file content), ?_, leavesOnly_put hdestination hplace rfl⟩
    have hempty : (fs.put place (.file ByteArray.empty)).node? place =
        some (.file ByteArray.empty) := node?_put_self hne
    rw [write, openFile_of_none hdestination hnode hpermit, ok_bind]
    simp only [store_of_base hempty rfl, FileNode.withContent, put_put]
  · have hplace : fs.isDirectory place = false :=
      (isDirectory_of_node? hnode).trans (isDirectory_of_base hbase)
    refine ⟨fs.put place (node.withContent content), ?_,
      leavesOnly_put hdestination hplace (base_withContent hbase content)⟩
    rw [write, openFile_of_file hdestination hnode hbase hpermit, ok_bind]
    simp only [store_of_base hnode hbase]

/-! ## Making directories -/

theorem KeepsFiles.refl (fs : FileSystem) : fs.KeepsFiles but fs := fun _ _ => .inl rfl

theorem KeepsFiles.trans (h : fs.KeepsFiles but made) (h' : made.KeepsFiles but opened) :
    fs.KeepsFiles but opened := by
  intro place hplace
  rcases h place hplace with hsame | ⟨hnone, hmade⟩
  · rw [← hsame]
    exact h' place hplace
  · rcases h' place hplace with hsame' | ⟨hnone', -⟩
    · exact .inr ⟨hnone, hsame'.trans hmade⟩
    · rw [hmade] at hnone'
      cases hnone'

/-- A place that is left out keeps the files of a file system all the more. -/
theorem KeepsFiles.weaken (h : fs.KeepsFiles none made) : fs.KeepsFiles but made :=
  fun place _ => h place nofun

theorem keepsFiles_put_directory (h : fs.node? place = none) :
    fs.KeepsFiles none (fs.put place .directory) := by
  intro other _
  by_cases hother : other = place
  · subst hother
    refine .inr ⟨h, node?_put_self ?_⟩
    rintro rfl
    cases h
  · exact .inl (node?_put_of_ne hother)

/-- What the system refuses is there. -/
theorem permit_ne_missing (fs : FileSystem) (access : Access) (place : List String) :
    fs.permit access place ≠ .error .missing := by
  have hrefusal : ∀ node : FileNode, node.refusal? access ≠ some .missing := by
    intro node
    induction node with
    | guarded refused reason node ih =>
      rw [FileNode.refusal?]
      split
      · nofun
      · exact ih
    | _ => nofun
  intro h
  rw [permit] at h
  split at h
  · rename_i hfault
    cases h
    obtain ⟨node, -, hnode⟩ := Option.bind_eq_some_iff.1 hfault
    exact hrefusal node hnode
  · cases h

/-- A name is missed only where nothing is. -/
theorem node?_of_enter_missing {name : String} (h : fs.enter origin name = .error .missing) :
    fs.node? (origin ++ [name]) = none := by
  rw [enter] at h
  split at h
  · cases h
  split at h
  · cases h
  split at h
  · rename_i hrefused
    cases h
    exact absurd hrefused (permit_ne_missing fs .search origin)
  · by_contra hsome
    rw [if_pos (Option.isSome_iff_ne_none.2 hsome)] at h
    split_ifs at h
    cases h

theorem keepsFiles_enterMaking (fs : FileSystem) (place : List String) (name : String) :
    fs.KeepsFiles none (fs.enterMaking place name).1 := by
  rw [enterMaking]
  split
  · rename_i hmissing
    split
    · exact .refl fs
    · exact keepsFiles_put_directory (node?_of_enter_missing hmissing)
  · exact .refl fs

theorem keepsFiles_followMaking (fs : FileSystem) (place names : List String) :
    fs.KeepsFiles none (fs.followMaking place names).1 := by
  induction names generalizing fs place with
  | nil => exact .refl fs
  | cons name names ih =>
    have hname := keepsFiles_enterMaking fs place name
    rw [followMaking]
    split
    · rename_i made next heq
      rw [heq] at hname
      exact hname.trans (ih made next)
    · rename_i made fault heq
      rw [heq] at hname
      exact hname

theorem keepsFiles_makeDirectories (fs : FileSystem) (path : String) :
    fs.KeepsFiles none (fs.makeDirectories path).1 := by
  rw [makeDirectories]
  split
  · exact .refl fs
  · exact keepsFiles_followMaking fs _ _

theorem keepsFiles_append (fs : FileSystem) (place : List String) (more : ByteArray) :
    fs.KeepsFiles (some place) (fs.append place more) := by
  rcases fs.append_eq place more with heq | ⟨node, node', content, -, -, heq⟩
  · rw [heq]
    exact .refl fs
  · rw [heq]
    exact fun other hother => .inl (node?_put_of_ne (by simpa using hother))

theorem keepsFiles_openFile (h : fs.openFile path = .ok (place, opened)) :
    fs.KeepsFiles (some place) opened := by
  obtain ⟨place', -, h⟩ := exists_of_bind_eq_ok h
  split at h
  · obtain ⟨-, -, h⟩ := exists_of_bind_eq_ok h
    cases h
    exact fun other hother => .inl (node?_put_of_ne (by simpa using hother))
  · split at h
    · cases h
    · obtain ⟨-, -, h⟩ := exists_of_bind_eq_ok h
      cases h
      exact .refl fs

end FileSystem

/-- Opening the log makes directories and changes no file but the log. -/
theorem keepsFiles_openLog (setting : LogSetting) (fs : FileSystem) :
    fs.KeepsFiles (setting.openLog fs).2 (setting.openLog fs).1 := by
  rw [LogSetting.openLog]
  split
  · exact .refl fs
  · rename_i directory _
    have hmade : fs.KeepsFiles none
        (if directory == "" then (fs, .ok fs.working) else fs.makeDirectories directory).1 := by
      split
      · exact .refl fs
      · exact FileSystem.keepsFiles_makeDirectories fs directory
    split
    · rename_i made fault heq
      rw [heq] at hmade
      exact hmade.weaken
    · rename_i made place heq
      rw [heq] at hmade
      split
      · exact hmade.weaken
      · rename_i opened hopened
        exact hmade.weaken.trans (FileSystem.keepsFiles_openFile hopened)

end CqlGlue.CommandLine
