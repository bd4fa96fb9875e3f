import CanvasFlutter.Proofs.Text.Lines
import CanvasFlutter.Workspace.Files

namespace CanvasFlutter

/-!
# `CanvasFlutter.Proofs.Workspace.Store` — what is written is read again

A write changes a workspace at one place, where a file or nothing was. No path leads through that
place, so the path that led there before leads there still, through whatever links.

## Contents
- **Places.** `Entry.get?_put_self`; `Entry.outline_get?_put`: all other places keep their outline.
- **Steps.** `Workspace.walk_blank`, `walk_child` and others: what a walk does for one name;
  `resolve_eq_walk`.
- **Paths.** `Workspace.walk_store`: a path leads to the place again.
- **Actions.** `FileAction.readText_writeText`.
-/

/-! ## Places -/

namespace Entry

/-- What a path sees of an entry that it comes to. -/
inductive Outline where
  | file
  | link (target : String)
  | folder

/-- What a path sees of an entry. -/
def outline : Entry → Outline
  | .file _ => .file
  | .link target => .link target
  | .folder _ => .folder

theorem get?_append (place more : List String) (entry : Entry) :
    entry.get? (place ++ more) = (entry.get? place).bind (get? more) := by
  induction place generalizing entry with
  | nil => rfl
  | cons name place ih =>
      cases entry with
      | folder children =>
          rw [List.cons_append, get?, get?]
          cases children.lookup name with
          | none => rfl
          | some child => exact ih child
      | file content => rfl
      | link target => rfl

theorem lookup_setChild (name other : String) (entry : Entry) (children : List (String × Entry)) :
    (setChild name entry children).lookup other
      = if other = name then some entry else children.lookup other := by
  induction children with
  | nil =>
      rw [setChild, List.lookup_cons, List.lookup_nil]
      split <;> simp_all
  | cons first rest ih =>
      obtain ⟨n, e⟩ := first
      rw [setChild]
      split
      · next h =>
          subst h
          rw [List.lookup_cons, List.lookup_cons]
          split <;> simp_all
      · split
        · rw [List.lookup_cons]
          split <;> simp_all
        · next hne hlt =>
            rw [List.lookup_cons, List.lookup_cons, ih]
            split
            · next heq =>
                have : other = n := by simpa using heq
                subst this
                simp [Ne.symm hne]
            · rfl

/-- The place is found in a folder, and a file or nothing is there. -/
def IsOpen (place : List String) (name : String) (top : Entry) : Prop :=
  ∃ children, top.get? place = some (.folder children)
    ∧ ∀ e, children.lookup name = some e → e.outline = .file

theorem get?_put_self {place : List String} {name : String} {top : Entry}
    (h : IsOpen place name top) (entry : Entry) :
    (put place name entry top).get? (place ++ [name]) = some entry := by
  obtain ⟨children, hfolder, -⟩ := h
  induction place generalizing top with
  | nil =>
      obtain rfl := Option.some.inj hfolder
      simp [put, changeFolder, get?, lookup_setChild]
  | cons first place ih =>
      cases top with
      | folder entries =>
          obtain ⟨child, hlookup, hchild⟩ := Option.bind_eq_some_iff.mp hfolder
          have hput := ih hchild
          simp only [put, List.cons_append, changeFolder, hlookup, get?, lookup_setChild, if_true,
            Option.bind_some] at hput ⊢
          exact hput
      | file content => simp [get?] at hfolder
      | link target => simp [get?] at hfolder

/-- A file that is put at an open place changes no outline elsewhere. -/
theorem outline_get?_put {place : List String} {name : String} {top : Entry}
    (h : IsOpen place name top) (content : ByteArray) {other : List String}
    (hne : other ≠ place ++ [name]) :
    ((put place name (.file content) top).get? other).map outline
      = (top.get? other).map outline := by
  obtain ⟨children, hfolder, hopen⟩ := h
  induction place generalizing top other with
  | nil =>
      obtain rfl := Option.some.inj hfolder
      cases other with
      | nil => rfl
      | cons n rest =>
          simp only [put, changeFolder, get?, lookup_setChild]
          split
          · next heq =>
              subst heq
              -- Below the place nothing was, and nothing is.
              obtain ⟨m, rest, rfl⟩ := List.exists_cons_of_ne_nil (l := rest) (by simpa using hne)
              cases hlookup : children.lookup n with
              | none => simp [get?]
              | some e =>
                  cases e with
                  | file _ => simp [get?]
                  | _ => simpa [outline] using hopen _ hlookup
          · rfl
  | cons first place ih =>
      cases top with
      | folder entries =>
          obtain ⟨child, hlookup, hchild⟩ := Option.bind_eq_some_iff.mp hfolder
          cases other with
          | nil => simp [put, changeFolder, hlookup, get?, outline]
          | cons n rest =>
              simp only [put, changeFolder, hlookup, get?, lookup_setChild]
              split
              · next heq =>
                  subst heq
                  have hrest : rest ≠ place ++ [name] := by simpa using hne
                  have hput := ih hrest hchild
                  simpa [put, hlookup] using hput
              · rfl
      | file content => simp [get?] at hfolder
      | link target => simp [get?] at hfolder

end Entry

/-! ## Steps -/

namespace Workspace

section

variable {w : Workspace} {follow : Bool} {links : Nat} {place rest : List String}
variable {name target : String} {children : List (String × Entry)} {entry : Entry}

theorem walk_nil (hhere : w.top.get? place = some entry) :
    w.walk follow links place [] = .ok (.taken place entry) := by
  rw [walk, hhere]

theorem walk_nowhere (hhere : w.top.get? place = none) (names : List String) :
    w.walk follow links place names = .error .notFound := by
  cases names <;> rw [walk, hhere]

theorem walk_nil_ne_free {q : List String} {asFolder : Bool} :
    w.walk follow links place [] ≠ .ok (.free q name asFolder) := by
  rw [walk]
  split <;> simp

theorem walk_leaf (hhere : w.top.get? place = some entry)
    (hleaf : ∀ children, entry ≠ .folder children) :
    w.walk follow links place (name :: rest) = .error .notDirectory := by
  rw [walk, hhere]
  cases entry with
  | folder children => exact absurd rfl (hleaf children)
  | _ => rfl

theorem walk_blank (hhere : w.top.get? place = some (.folder children))
    (hblank : name = "" ∨ name = ".") :
    w.walk follow links place (name :: rest) = w.walk follow links place rest := by
  rw [walk, hhere]
  simp only [if_pos hblank]

theorem walk_up (hhere : w.top.get? place = some (.folder children)) :
    w.walk follow links place (".." :: rest) = w.walk follow links place.dropLast rest := by
  rw [walk, hhere]
  simp

theorem walk_long (hhere : w.top.get? place = some (.folder children))
    (hblank : ¬ (name = "" ∨ name = ".")) (hup : ¬ name = "..")
    (hlong : maxNameBytes < name.utf8ByteSize) :
    w.walk follow links place (name :: rest) = .error .nameTooLong := by
  rw [walk, hhere]
  simp only [if_neg hblank, if_neg hup, if_pos hlong]

/-! A name that goes down to a child of a folder. -/

variable (hhere : w.top.get? place = some (.folder children))
variable (hblank : ¬ (name = "" ∨ name = ".")) (hup : ¬ name = "..")
variable (hlong : ¬ maxNameBytes < name.utf8ByteSize)

include hhere hblank hup hlong

theorem walk_free (hnone : children.lookup name = none) (hall : rest.all (· = "") = true) :
    w.walk follow links place (name :: rest) = .ok (.free place name (!rest.isEmpty)) := by
  rw [walk, hhere]
  simp only [if_neg hblank, if_neg hup, if_neg hlong, hnone, if_pos hall]

theorem walk_missing (hnone : children.lookup name = none) (hall : ¬ rest.all (· = "") = true) :
    w.walk follow links place (name :: rest) = .error .notFound := by
  rw [walk, hhere]
  simp only [if_neg hblank, if_neg hup, if_neg hlong, hnone, if_neg hall]

theorem walk_child (hentry : children.lookup name = some entry)
    (hnolink : ∀ target, entry ≠ .link target) :
    w.walk follow links place (name :: rest) = w.walk follow links (place ++ [name]) rest := by
  rw [walk, hhere]
  simp only [if_neg hblank, if_neg hup, if_neg hlong, hentry]

theorem walk_lastLink (hlink : children.lookup name = some (.link target))
    (hlast : (rest.isEmpty && !follow) = true) :
    w.walk follow links place (name :: rest) = .ok (.taken (place ++ [name]) (.link target)) := by
  rw [walk, hhere]
  simp only [if_neg hblank, if_neg hup, if_neg hlong, hlink, if_pos hlast]

theorem walk_linkless (hlink : children.lookup name = some (.link target))
    (hlast : ¬ (rest.isEmpty && !follow) = true) :
    w.walk follow 0 place (name :: rest) = .error .tooManyLinks := by
  rw [walk, hhere]
  simp only [if_neg hblank, if_neg hup, if_neg hlong, hlink, if_neg hlast]

theorem walk_link (hlink : children.lookup name = some (.link target))
    (hlast : ¬ (rest.isEmpty && !follow) = true) :
    w.walk follow (links + 1) place (name :: rest)
      = w.walk follow links (if Path.isAbsolute target then [] else place)
          (Path.parts target ++ rest) := by
  rw [walk, hhere]
  simp only [if_neg hblank, if_neg hup, if_neg hlong, hlink, if_neg hlast]

end

/-- Only a path that is not too long leads anywhere. -/
theorem bounds_of_resolve {w : Workspace} {follow : Bool} {path : String} {spot : Spot}
    (h : w.resolve follow path = .ok spot) :
    path ≠ "" ∧ '\x00' ∉ path.toList ∧ path.utf8ByteSize ≤ maxPathBytes := by
  unfold resolve at h
  split at h
  · cases h
  · next hempty =>
      split at h
      · cases h
      · next hnul =>
          split at h
          · cases h
          · next hlong => exact ⟨by simpa using hempty, by simpa using hnul, Nat.not_lt.mp hlong⟩

theorem resolve_of_bounds {path : String} (hne : path ≠ "") (hnul : '\x00' ∉ path.toList)
    (hbytes : path.utf8ByteSize ≤ maxPathBytes) (w : Workspace) (follow : Bool) :
    w.resolve follow path = w.walk follow maxLinks (w.start path) (Path.parts path) := by
  rw [resolve, if_neg (by simpa using hne), if_neg (by simpa using hnul),
    if_neg (Nat.not_lt.mpr hbytes)]

/-- A path that leads somewhere in some workspace is one to walk along in each of them. -/
theorem resolve_eq_walk {w : Workspace} {follow : Bool} {path : String} {spot : Spot}
    (h : w.resolve follow path = .ok spot) (v : Workspace) (follow' : Bool) :
    v.resolve follow' path = v.walk follow' maxLinks (v.start path) (Path.parts path) := by
  obtain ⟨hne, hnul, hbytes⟩ := bounds_of_resolve h
  exact resolve_of_bounds hne hnul hbytes v follow'

end Workspace

/-! ## Paths -/

namespace Workspace

/-- The workspace with a file put into the folder at a place. -/
def store (w : Workspace) (place : List String) (name : String) (content : ByteArray) : Workspace :=
  { w with top := Entry.put place name (.file content) w.top }

variable {w : Workspace} {place : List String} {name : String} {content : ByteArray}

theorem get?_target (h : Entry.IsOpen place name w.top) {e : Entry}
    (he : w.top.get? (place ++ [name]) = some e) : e.outline = .file := by
  obtain ⟨children, hfolder, hopen⟩ := h
  rw [Entry.get?_append, hfolder, Option.bind_some, Entry.get?] at he
  cases hlookup : children.lookup name with
  | none => simp [hlookup] at he
  | some child =>
      rw [hlookup, Option.bind_some, Entry.get?] at he
      exact Option.some.inj he ▸ hopen child hlookup

/-- A folder is still a folder, and of its children only the one that was put has another outline. -/
theorem exists_folder_store (h : Entry.IsOpen place name w.top) (content : ByteArray)
    {here : List String} {children : List (String × Entry)}
    (hhere : w.top.get? here = some (.folder children)) :
    ∃ children', (w.store place name content).top.get? here = some (.folder children')
      ∧ (here = place → children'.lookup name = some (.file content))
      ∧ ∀ n, here ++ [n] ≠ place ++ [name] →
          (children'.lookup n).map Entry.outline = (children.lookup n).map Entry.outline := by
  have hne : here ≠ place ++ [name] := by
    rintro rfl
    simpa [Entry.outline] using get?_target h hhere
  have houtline := Entry.outline_get?_put h content hne
  rw [hhere] at houtline
  obtain ⟨folder, hfolder, hkind⟩ := Option.map_eq_some_iff.mp houtline
  obtain ⟨children', rfl⟩ : ∃ children', folder = .folder children' := by
    cases folder with
    | folder children' => exact ⟨children', rfl⟩
    | _ => simp [Entry.outline] at hkind
  have hchild : ∀ {top : Entry} {entries}, top.get? here = some (.folder entries) →
      ∀ n, entries.lookup n = top.get? (here ++ [n]) := by
    intro top entries htop n
    rw [Entry.get?_append, htop, Option.bind_some, Entry.get?]
    cases entries.lookup n <;> rfl
  refine ⟨children', hfolder, ?_, fun n hn => ?_⟩
  · rintro rfl
    rw [hchild hfolder, Entry.get?_put_self h]
  · rw [hchild hfolder, hchild hhere]
    exact Entry.outline_get?_put h content hn

/-- What a path comes to if it may be written there. -/
def LeadsTo (place : List String) (name : String) (spot : Spot) : Prop :=
  (∃ content, spot = .taken (place ++ [name]) (.file content)) ∨ spot = .free place name false

/-- **A path that leads to a place leads there again** when a file is put there. -/
theorem walk_store (hopen : Entry.IsOpen place name w.top) {links : Nat}
    {here names : List String} {spot : Spot} (hspot : LeadsTo place name spot)
    (h : w.walk true links here names = .ok spot) :
    (w.store place name content).walk true links here names
      = .ok (.taken (place ++ [name]) (.file content)) := by
  have hself : (w.store place name content).top.get? (place ++ [name]) = some (.file content) :=
    Entry.get?_put_self hopen _
  have hend : ∀ links, (w.store place name content).walk true links (place ++ [name]) []
      = .ok (.taken (place ++ [name]) (.file content)) := fun _ => walk_nil hself
  fun_induction Workspace.walk w true links here names with
  | case1 links here entry hentry =>
      obtain rfl := Except.ok.inj h
      rcases hspot with ⟨before, heq⟩ | heq
      · obtain ⟨rfl, rfl⟩ := Spot.taken.inj heq
        exact hend links
      · simp at heq
  | case3 links here n rest children hhere hstay ih =>
      obtain ⟨children', hfolder, -, -⟩ := exists_folder_store hopen content hhere
      rw [walk_blank hfolder hstay]
      exact ih h
  | case4 links here rest children hhere hstay ih =>
      obtain ⟨children', hfolder, -, -⟩ := exists_folder_store hopen content hhere
      rw [walk_up hfolder]
      exact ih h
  | case6 links here n rest children hhere hstay hup hlong hnone hall =>
      obtain ⟨children', hfolder, hput, -⟩ := exists_folder_store hopen content hhere
      obtain rfl := Except.ok.inj h
      rcases hspot with ⟨before, heq⟩ | heq
      · simp at heq
      · obtain ⟨rfl, rfl, hrest⟩ := Spot.free.inj heq
        obtain rfl : rest = [] := by simpa using hrest
        rw [walk_child hfolder hstay hup hlong (hput rfl) (by simp)]
        exact hend links
  | case10 here n rest children hhere hstay hup hlong target hlink hlast links next ih =>
      obtain ⟨children', hfolder, -, hother⟩ :=
        exists_folder_store hopen content hhere
      have hne : here ++ [n] ≠ place ++ [name] := by
        intro heq
        have htarget : w.top.get? (place ++ [name]) = some (.link target) := by
          rw [← heq, Entry.get?_append, hhere, Option.bind_some, Entry.get?, hlink]
          rfl
        simpa [Entry.outline] using get?_target hopen htarget
      have hlookup : children'.lookup n = some (.link target) := by
        have houtline := hother n hne
        rw [hlink] at houtline
        obtain ⟨e, he, hkind⟩ := Option.map_eq_some_iff.mp houtline
        cases e <;> simp_all [Entry.outline]
      rw [walk_link hfolder hstay hup hlong hlookup hlast]
      exact ih h
  | case11 links here n rest children hhere hstay hup hlong entry hnolink hlookup ih =>
      obtain ⟨children', hfolder, hput, hother⟩ :=
        exists_folder_store hopen content hhere
      obtain ⟨entry', hlookup', hnolink'⟩ : ∃ entry', children'.lookup n = some entry'
          ∧ ∀ target, entry' ≠ .link target := by
        by_cases heq : here ++ [n] = place ++ [name]
        · obtain ⟨rfl, hn⟩ := List.append_inj' heq rfl
          obtain rfl : n = name := by simpa using hn
          exact ⟨_, hput rfl, by simp⟩
        · have houtline := hother n heq
          rw [hlookup] at houtline
          obtain ⟨e, he, hkind⟩ := Option.map_eq_some_iff.mp houtline
          refine ⟨e, he, ?_⟩
          rintro target rfl
          cases entry <;> simp_all [Entry.outline]
      rw [walk_child hfolder hstay hup hlong hlookup' hnolink']
      exact ih h
  | _ => simp_all

/-- The entry of a spot is there, or there is a folder that lacks it. -/
def Holds (w : Workspace) : Spot → Prop
  | .taken place entry => w.top.get? place = some entry
  | .free place name _ =>
      ∃ children, w.top.get? place = some (.folder children) ∧ children.lookup name = none

theorem holds_of_walk {follow : Bool} {links : Nat} {here names : List String} {spot : Spot}
    (h : w.walk follow links here names = .ok spot) : w.Holds spot := by
  fun_induction Workspace.walk w follow links here names with
  | case1 links here entry hentry =>
      obtain rfl := Except.ok.inj h
      exact hentry
  | case3 links here n rest children hhere hstay ih => exact ih h
  | case4 links here rest children hhere hstay ih => exact ih h
  | case6 links here n rest children hhere hstay hup hlong hnone hall =>
      obtain rfl := Except.ok.inj h
      exact ⟨children, hhere, hnone⟩
  | case8 links here n rest children hhere hstay hup hlong target hlink hlast =>
      obtain rfl := Except.ok.inj h
      show w.top.get? (here ++ [n]) = some (.link target)
      rw [Entry.get?_append, hhere, Option.bind_some, Entry.get?, hlink]
      rfl
  | case10 here n rest children hhere hstay hup hlong target hlink hlast links next ih => exact ih h
  | case11 links here n rest children hhere hstay hup hlong entry hnolink hlookup ih => exact ih h
  | _ => simp_all

/-- Where a path may be written the place is open. -/
theorem LeadsTo.isOpen {spot : Spot} (h : LeadsTo place name spot) (hspot : w.Holds spot) :
    Entry.IsOpen place name w.top := by
  rcases h with ⟨before, rfl⟩ | rfl
  · have hfile : w.top.get? (place ++ [name]) = some (.file before) := hspot
    rw [Entry.get?_append, Option.bind_eq_some_iff] at hfile
    obtain ⟨folder, hfolder, hchild⟩ := hfile
    cases folder with
    | folder children =>
        refine ⟨children, hfolder, fun e he => ?_⟩
        rw [Entry.get?, he, Option.bind_some, Entry.get?] at hchild
        rw [Option.some.inj hchild]
        rfl
    | _ => simp [Entry.get?] at hchild
  · obtain ⟨children, hfolder, hnone⟩ := hspot
    exact ⟨children, hfolder, fun e he => by simp [hnone] at he⟩

/-- A path that may be written leads to what is written. -/
theorem resolve_store {path : String} {spot : Spot} (hspot : LeadsTo place name spot)
    (h : w.resolve true path = .ok spot) : (w.store place name content).resolve true path
      = .ok (.taken (place ++ [name]) (.file content)) := by
  have hwalk := (resolve_eq_walk h w true).symm.trans h
  exact (resolve_eq_walk h _ true).trans (walk_store (hspot.isOpen (holds_of_walk hwalk)) hspot hwalk)

end Workspace

/-! ## Actions -/

namespace FileAction

variable {ε δ α β : Type} {w w' : Workspace}

theorem runOn_bind (action : FileAction ε α) (next : α → FileAction ε β) (w : Workspace) :
    (action >>= next).runOn w = match action.runOn w with
      | (.ok a, w') => (next a).runOn w'
      | (.error e, w') => (.error e, w') := by
  simp only [runOn, ExceptT.run_bind, StateT.run_bind]
  generalize StateT.run (ExceptT.run action) w = result
  obtain ⟨_ | a, w'⟩ := result <;> rfl

/-- An action fails in its first part, or it does that and then the rest. -/
theorem runOn_bind_cases {action : FileAction ε α} {next : α → FileAction ε β} {r : Except ε β}
    (h : (action >>= next).runOn w = (r, w')) :
    (∃ e, action.runOn w = (.error e, w') ∧ r = .error e)
      ∨ ∃ a between, action.runOn w = (.ok a, between) ∧ (next a).runOn between = (r, w') := by
  rw [runOn_bind] at h
  split at h
  · next a between hfirst => exact .inr ⟨a, between, hfirst, h⟩
  · next e between hfirst =>
      obtain ⟨rfl, rfl⟩ := Prod.mk.inj h
      exact .inl ⟨e, hfirst, rfl⟩

/-- An action that succeeds did its first part, and then the rest. -/
theorem runOn_bind_eq_ok {action : FileAction ε α} {next : α → FileAction ε β} {b : β}
    (h : (action >>= next).runOn w = (.ok b, w')) :
    ∃ a between, action.runOn w = (.ok a, between) ∧ (next a).runOn between = (.ok b, w') := by
  refine (runOn_bind_cases h).resolve_left ?_
  rintro ⟨e, -, hresult⟩
  cases hresult

theorem runOn_mapError_eq_ok {f : ε → δ} {action : FileAction ε α} {a : α}
    (h : (action.mapError f).runOn w = (.ok a, w')) : action.runOn w = (.ok a, w') := by
  have hrun : (action.mapError f).runOn w = match action.runOn w with
      | (.ok a, w') => (.ok a, w')
      | (.error e, w') => (.error (f e), w') := by
    simp only [mapError, runOn, ExceptT.run_mk, StateT.run_bind]
    generalize StateT.run (ExceptT.run action) w = result
    obtain ⟨_ | a, w'⟩ := result <;> rfl
  rw [hrun] at h
  split at h <;> simp_all

theorem runOn_throw (e : ε) (w : Workspace) :
    (throw e : FileAction ε α).runOn w = (.error e, w) := rfl

theorem runOn_resolve (follow : Bool) (path : String) (w : Workspace) :
    (resolve follow path).runOn w = (w.resolve follow path, w) := by
  have hget : (get : FileAction FileFault Workspace).runOn w = (.ok w, w) := rfl
  rw [resolve, runOn_bind, hget]
  dsimp only
  cases w.resolve follow path <;> rfl

/-- A write that succeeds puts a file where its path leads. -/
theorem exists_store_of_writeBytes {path : String} {content : ByteArray}
    (h : (writeBytes path content).runOn w = (.ok (), w')) :
    ∃ place name spot, w.resolve true path = .ok spot ∧ Workspace.LeadsTo place name spot
      ∧ w' = w.store place name content := by
  rw [writeBytes, runOn_bind, runOn_resolve] at h
  cases hresolve : w.resolve true path with
  | error fault => simp [hresolve] at h
  | ok spot =>
      rw [hresolve] at h
      simp only at h
      split at h
      · next place before =>
          cases hlast : place.getLast? with
          | none => simp [putAt, hlast, runOn_throw] at h
          | some name =>
              obtain ⟨front, rfl⟩ := List.getLast?_eq_some_iff.mp hlast
              refine ⟨front, name, _, rfl, .inl ⟨before, rfl⟩, ?_⟩
              simp only [putAt, hlast, List.dropLast_concat] at h
              exact (congrArg Prod.snd h).symm
      · simp [runOn_throw] at h
      · simp [runOn_throw] at h
      · simp [runOn_throw] at h
      · next place name =>
          exact ⟨place, name, _, rfl, .inr rfl, (congrArg Prod.snd h).symm⟩

/-- **What is written is read again.** -/
theorem readText_writeText {path text : String}
    (h : (writeText path text).runOn w = (.ok (), w')) :
    (readText path).runOn w' = (.ok text, w') := by
  obtain ⟨place, name, spot, hresolve, hspot, rfl⟩ := exists_store_of_writeBytes h
  have hread : (readBytes path).runOn (w.store place name text.toUTF8)
      = (.ok text.toUTF8, w.store place name text.toUTF8) := by
    rw [readBytes, runOn_bind, runOn_resolve, Workspace.resolve_store hspot hresolve]
    rfl
  rw [readText, runOn_bind, hread]
  simp only [Text.fromUTF8?_toUTF8]
  rfl

end FileAction

end CanvasFlutter
