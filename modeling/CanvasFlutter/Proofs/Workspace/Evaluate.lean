import CanvasFlutter.Proofs.Workspace.View

namespace CanvasFlutter

/-!
# `CanvasFlutter.Proofs.Workspace.Evaluate` — facts about a given workspace

A walk jumps back to earlier names at every link, so it recurses on links and names together. Here
the two are taken apart, one recursion within the other, and what a path leads to in a given
workspace can be decided. So can be whether a given tree is tidy, whether it has links, and which
one an action leaves behind.

## Contents
- **Walks.** `Workspace.walkNames`, `Workspace.walkBy`; `walk_eq_walkBy`.
- **Trees.** `Entry.isTidy`, `Entry.isLinkless`, `Entry.same`.
- **Actions.** `FileAction.endsIn`: an action succeeds and leaves a given workspace behind.
-/

namespace Workspace

/-! ## Walks -/

/-- What the remaining names of a path lead to from a place; at a link that counts for what it leads
to, the walk is handed over. -/
def walkNames (w : Workspace) (follow : Bool)
    (jump : Option (List String → List String → Except FileFault Spot)) :
    List String → List String → Except FileFault Spot
  | place, [] =>
      match w.top.get? place with
      | some entry => .ok (.taken place entry)
      | none => .error .notFound
  | place, name :: rest =>
      match w.top.get? place with
      | some (.folder children) =>
          if name = "" ∨ name = "." then walkNames w follow jump place rest
          else if name = ".." then walkNames w follow jump place.dropLast rest
          else if maxNameBytes < name.utf8ByteSize then .error .nameTooLong
          else
            match children.lookup name with
            | none =>
                if rest.all (· = "") then .ok (.free place name (!rest.isEmpty))
                else .error .notFound
            | some (.link target) =>
                if rest.isEmpty && !follow then .ok (.taken (place ++ [name]) (.link target))
                else
                  match jump with
                  | none => .error .tooManyLinks
                  | some jump =>
                      jump (if Path.isAbsolute target then [] else place) (Path.parts target ++ rest)
            | some _ => walkNames w follow jump (place ++ [name]) rest
      | some _ => .error .notDirectory
      | none => .error .notFound

/-- What the remaining names of a path lead to from a place, by recursion on the links that may be
gone through. -/
def walkBy (w : Workspace) (follow : Bool) :
    (links : Nat) → List String → List String → Except FileFault Spot
  | 0 => walkNames w follow none
  | links + 1 => walkNames w follow (some (walkBy w follow links))

theorem walk_eq_walkNames (w : Workspace) (follow : Bool) (links : Nat)
    (place names : List String) : walk w follow links place names
      = walkNames w follow (match links with | 0 => none | n + 1 => some (walk w follow n))
          place names := by
  induction names generalizing place with
  | nil =>
      unfold walk walkNames
      rfl
  | cons name rest ih =>
      rw [walk, walkNames]
      cases w.top.get? place with
      | none => rfl
      | some entry =>
          cases entry with
          | folder children =>
              simp only [ih]
              cases children.lookup name with
              | none => rfl
              | some child => cases links <;> cases child <;> rfl
          | _ => rfl

/-- The two walks are one. -/
theorem walk_eq_walkBy : walk = walkBy := by
  funext w follow links
  induction links with
  | zero =>
      funext place names
      rw [walk_eq_walkNames, walkBy]
  | succ links ih =>
      funext place names
      rw [walk_eq_walkNames, walkBy, ← ih]

end Workspace

namespace Entry

/-! ## Trees -/

mutual

/-- Whether a tree is tidy. -/
def isTidy : Entry → Bool
  | .folder children => decide (Listed children) && allTidy children
  | _ => true

/-- Whether all children of a folder are tidy. -/
def allTidy : List (String × Entry) → Bool
  | [] => true
  | (_, entry) :: rest => isTidy entry && allTidy rest

end

mutual

/-- Whether there is no link in a tree. -/
def isLinkless : Entry → Bool
  | .file _ => true
  | .link _ => false
  | .folder children => allLinkless children

/-- Whether there is no link in any child of a folder. -/
def allLinkless : List (String × Entry) → Bool
  | [] => true
  | (_, entry) :: rest => isLinkless entry && allLinkless rest

end

mutual

theorem tidy_of_isTidy : (top : Entry) → top.isTidy = true → top.Tidy
  | .file content, _ => tidy_file content
  | .link target, _ => tidy_link target
  | .folder children, h => by
      rw [isTidy, Bool.and_eq_true] at h
      exact tidy_folder (of_decide_eq_true h.1) (tidy_of_allTidy children h.2)

theorem tidy_of_allTidy : (children : List (String × Entry)) → allTidy children = true →
    ∀ child ∈ children, child.2.Tidy
  | [], _ => by simp
  | (_, entry) :: rest, h => by
      rw [allTidy, Bool.and_eq_true] at h
      exact List.forall_mem_cons.mpr ⟨tidy_of_isTidy entry h.1, tidy_of_allTidy rest h.2⟩

end

theorem isLinkless_of_lookup {children : List (String × Entry)} {name : String} {entry : Entry}
    (h : allLinkless children = true) (hentry : children.lookup name = some entry) :
    entry.isLinkless = true := by
  induction children with
  | nil => simp at hentry
  | cons first rest ih =>
      obtain ⟨n, e⟩ := first
      rw [allLinkless, Bool.and_eq_true] at h
      rw [List.lookup_cons] at hentry
      split at hentry
      · exact Option.some.inj hentry ▸ h.1
      · exact ih h.2 hentry

/-- There is no link at any place of a tree without links. -/
theorem face?_ne_link_of_isLinkless {top : Entry} (h : top.isLinkless = true)
    (place : List String) (target : String) : top.face? place ≠ some (.link target) := by
  induction place generalizing top with
  | nil => cases top <;> simp_all [face?, get?, face, isLinkless]
  | cons name place ih =>
      cases top with
      | folder children =>
          rw [face?, get?]
          cases hlookup : children.lookup name with
          | none => simp
          | some entry => exact ih (isLinkless_of_lookup (by rwa [isLinkless] at h) hlookup)
      | _ => simp [face?, get?]

mutual

/-- Whether two trees are the same. Contents are compared as lists: arrays are compared by index,
which takes the kernel a walk along the list for every byte. -/
def same : Entry → Entry → Bool
  | .file content, .file other => decide (content.data.toList = other.data.toList)
  | .link target, .link other => decide (target = other)
  | .folder children, .folder others => allSame children others
  | _, _ => false

/-- Whether the children of two folders are the same. -/
def allSame : List (String × Entry) → List (String × Entry) → Bool
  | [], [] => true
  | (name, entry) :: rest, (other, found) :: others =>
      decide (name = other) && same entry found && allSame rest others
  | _, _ => false

end

mutual

theorem eq_of_same : (entry other : Entry) → entry.same other = true → entry = other
  | .file content, .file other, h =>
      congrArg Entry.file (ByteArray.ext (Array.toList_inj.mp (of_decide_eq_true h)))
  | .link target, .link other, h => congrArg Entry.link (of_decide_eq_true h)
  | .folder children, .folder others, h => congrArg Entry.folder (eq_of_allSame children others h)
  | .file _, .link _, h => by cases h
  | .file _, .folder _, h => by cases h
  | .link _, .file _, h => by cases h
  | .link _, .folder _, h => by cases h
  | .folder _, .file _, h => by cases h
  | .folder _, .link _, h => by cases h

theorem eq_of_allSame : (children others : List (String × Entry)) →
    allSame children others = true → children = others
  | [], [], _ => rfl
  | (name, entry) :: rest, (other, found) :: others, h => by
      rw [allSame, Bool.and_eq_true, Bool.and_eq_true] at h
      obtain ⟨⟨hname, hentry⟩, hrest⟩ := h
      obtain rfl := of_decide_eq_true hname
      rw [eq_of_same entry found hentry, eq_of_allSame rest others hrest]
  | [], _ :: _, h => by cases h
  | _ :: _, [], h => by cases h

end

end Entry

/-- Whether an action succeeds with this result and leaves this workspace behind. -/
def FileAction.endsIn {ε α : Type} [DecidableEq α] (action : FileAction ε α) (w : Workspace) (a : α)
    (after : Workspace) : Bool :=
  match action.runOn w with
  | (.ok result, w') =>
      decide (result = a) && (w'.top.same after.top && decide (w'.here = after.here))
  | _ => false

theorem FileAction.runOn_of_endsIn {ε α : Type} [DecidableEq α] {action : FileAction ε α} {a : α}
    {w after : Workspace} (h : action.endsIn w a after = true) :
    action.runOn w = (.ok a, after) := by
  unfold endsIn at h
  split at h
  · next result w' hrun =>
      rw [Bool.and_eq_true, Bool.and_eq_true] at h
      obtain ⟨hresult, htop, hhere⟩ := h
      have hsame : w' = after := by
        cases w'
        cases after
        exact congr (congrArg Workspace.mk (Entry.eq_of_same _ _ htop)) (of_decide_eq_true hhere)
      rw [hrun, of_decide_eq_true hresult, hsame]
  · cases h

end CanvasFlutter
