import CanvasFlutter.Proofs.Workspace.Trail

namespace CanvasFlutter

/-!
# `CanvasFlutter.Proofs.Workspace.Removal` — removing a folder with all in it

A folder is emptied before it is removed by its path. Emptying it can break the path, but it never
bends it: what the path leads to afterwards, if anything, is the folder that has been emptied. So
there are three outcomes: nothing happens, the folder is emptied, or what the path leads to is
erased.

## Contents
- **Trees.** `erase_clear`: emptying a folder before it is erased makes no difference.
- **Walks.** `exists_resolve_of_faces`: a path leads where it led before something was taken away.
- **Outcomes.** `removeFolder_cases`, `removeTree_cases`, `does_removeTree`; `resolve_removeTree_ne`:
  where a tree has been removed.
-/

open Entry

/-! ## Trees -/

namespace Entry

variable {place : List String}

theorem setChild_setChild (name : String) (old new : Entry) (children : List (String × Entry)) :
    setChild name new (setChild name old children) = setChild name new children := by
  induction children with
  | nil => simp [setChild]
  | cons first rest ih =>
      obtain ⟨n, e⟩ := first
      rw [setChild, setChild]
      split
      · simp [setChild]
      · next hne =>
          split
          · simp [setChild]
          · next hlt => rw [setChild, if_neg hne, if_neg hlt, ih]

theorem eraseChild_setChild (name : String) (entry : Entry) (children : List (String × Entry)) :
    eraseChild name (setChild name entry children) = eraseChild name children := by
  induction children with
  | nil => simp [setChild, eraseChild]
  | cons first rest ih =>
      obtain ⟨n, e⟩ := first
      simp only [eraseChild] at ih ⊢
      rw [setChild]
      split
      · next heq =>
          subst heq
          simp
      · split
        · simp
        · rw [List.filter_cons, List.filter_cons, ih]

/-- A folder that is erased may be emptied first. -/
theorem erase_clear (place : List String) (name : String) (top : Entry) :
    erase place name (changeFolder (fun _ => []) (place ++ [name]) top) = erase place name top := by
  induction place generalizing top with
  | nil =>
      cases top with
      | folder children =>
          rw [List.nil_append, changeFolder]
          cases children.lookup name with
          | none => rfl
          | some child =>
              rw [erase, erase, changeFolder, changeFolder, eraseChild_setChild]
      | _ => rfl
  | cons first place ih =>
      cases top with
      | folder children =>
          rw [List.cons_append, changeFolder]
          cases hfirst : children.lookup first with
          | none => rfl
          | some child =>
              simp only [erase, changeFolder, lookup_setChild, if_true, hfirst] at ih ⊢
              rw [setChild_setChild, ih]
      | _ => rfl

/-- Emptying a folder only takes away. -/
theorem face?_of_clear {top : Entry} {q : List String}
    (h : (changeFolder (fun _ => []) place top).face? q ≠ none) :
    top.face? q = (changeFolder (fun _ => []) place top).face? q := by
  rw [face?_clear] at h ⊢
  split at h
  · exact absurd rfl h
  · next hnot => rw [if_neg hnot]

/-- An emptied folder is an empty folder. -/
theorem get?_clear {top : Entry} (h : top.face? place = some .folder) :
    (changeFolder (fun _ => []) place top).get? place = some (.folder []) := by
  obtain ⟨children, hchildren⟩ := face?_eq_folder_iff.mp h
  have hface : (changeFolder (fun _ => []) place top).face? place = some .folder := by
    rw [face?_clear, if_neg (by simp), h]
  obtain ⟨others, hothers⟩ := face?_eq_folder_iff.mp hface
  cases others with
  | nil => exact hothers
  | cons child rest =>
      have hbelow : (changeFolder (fun _ => []) place top).get? (place ++ [child.1]) = none :=
        get?_changeFolder_below (fun _ => []) hchildren
      rw [get?_append, hothers] at hbelow
      simp [get?] at hbelow

end Entry

/-! ## Walks -/

namespace Workspace

variable {w v : Workspace} {path : String} {place q : List String} {entry : Entry}

/-- **Taking something away bends no path**: the folder that a path leads to afterwards it led to
before, if all folders and links that are there were there. -/
theorem exists_resolve_of_faces {kids : List (String × Entry)} (hhere : v.here = w.here)
    (hfaces : ∀ p, v.top.face? p = some .folder ∨ (∃ target, v.top.face? p = some (.link target)) →
      w.top.face? p = v.top.face? p)
    (h : v.resolve false path = .ok (.taken q (.folder kids))) :
    ∃ before, w.resolve false path = .ok (.taken q before) := by
  have hfollow : v.resolve true path = .ok (.taken q (.folder kids)) :=
    resolve_follow h fun _ target heq => by cases (Spot.taken.inj heq).2
  have hthere : v.top.get? q = some (.folder kids) := holds_of_walk (walk_of_resolve h)
  have hon : ∀ p, v.terrain.ComesBy path p → w.top.face? p = v.top.face? p := fun p hp => by
    refine hfaces p ?_
    rcases face_of_trail (walk_of_resolve hfollow) hp with rfl | hon
    · exact .inl (face?_eq_folder_iff.mpr ⟨kids, hthere⟩)
    · exact hon
  obtain ⟨before, hbefore, -⟩ := exists_resolve_of_comesBy hhere hon h
  exact ⟨before, hbefore⟩

/-- If a folder has been emptied, its path leads to it or to no folder. -/
theorem emptied_of_resolve {children kids : List (String × Entry)}
    (h : w.resolve false path = .ok (.taken place (.folder children)))
    (hagain : Workspace.resolve { w with top := changeFolder (fun _ => []) place w.top } false path
      = .ok (.taken q (.folder kids))) : q = place ∧ kids = [] := by
  let cleared : Workspace := { w with top := changeFolder (fun _ => []) place w.top }
  have hthere : cleared.top.get? q = some (.folder kids) := holds_of_walk (walk_of_resolve hagain)
  have hfaces : ∀ p, cleared.top.face? p = some .folder
      ∨ (∃ target, cleared.top.face? p = some (.link target)) →
      w.top.face? p = cleared.top.face? p := fun p hp => face?_of_clear <| by
    rcases hp with hfolder | ⟨target, hlink⟩
    · exact fun hnone => by cases hnone.symm.trans hfolder
    · exact fun hnone => by cases hnone.symm.trans hlink
  obtain ⟨before, hbefore⟩ := exists_resolve_of_faces (w := w) (v := cleared) rfl hfaces hagain
  obtain rfl : place = q := (Spot.taken.inj (Except.ok.inj (h.symm.trans hbefore))).1
  have hold : w.top.get? place = some (.folder children) := holds_of_walk (walk_of_resolve h)
  have hempty := get?_clear (face?_eq_folder_iff.mpr ⟨children, hold⟩)
  exact ⟨rfl, Entry.folder.inj (Option.some.inj (hthere.symm.trans hempty))⟩

end Workspace

/-! ## Outcomes -/

namespace FileAction

variable {t : Terrain} {may make : List String → Prop} {w w' : Workspace} {path : String}
variable {place : List String}

/-- Removing a folder fails without effect or erases the empty folder that its path leads to. It
finds nothing only if its path leads to no folder. -/
theorem removeFolder_cases {r : Except FileFault Unit} (h : (removeFolder path).runOn w = (r, w')) :
    (w' = w ∧ r ≠ .ok () ∧ (r = .error .notFound →
        ∀ q kids, w.resolve false path ≠ .ok (.taken q (.folder kids))))
      ∨ ∃ front name children, w.resolve false path = .ok (.taken (front ++ [name]) (.folder children))
        ∧ w' = { w with top := Entry.erase front name w.top } := by
  have hfault : ∀ {P : Prop} (fault : FileFault), fault ≠ .notFound →
      (throw fault : FileAction FileFault Unit).runOn w = (r, w') →
      w' = w ∧ r ≠ .ok () ∧ (r = .error .notFound → P) := by
    intro P fault hne hthrow
    obtain ⟨rfl, rfl⟩ := Prod.mk.inj hthrow
    exact ⟨rfl, by simp, fun heq => absurd (Except.error.inj heq) hne⟩
  rw [removeFolder, runOn_bind, runOn_resolve] at h
  cases hresolve : w.resolve false path with
  | error fault =>
      rw [hresolve] at h
      obtain ⟨rfl, rfl⟩ := Prod.mk.inj h
      exact .inl ⟨rfl, by simp, by simp⟩
  | ok spot =>
      rw [hresolve] at h
      rcases spot with ⟨place, content | target | children⟩ | ⟨place, name, asFolder⟩
      · obtain ⟨rfl, rfl⟩ := Prod.mk.inj h
        exact .inl ⟨rfl, by simp, by simp⟩
      · obtain ⟨rfl, rfl⟩ := Prod.mk.inj h
        exact .inl ⟨rfl, by simp, by simp⟩
      · simp only at h
        split at h
        · exact .inl (hfault _ (by simp) h)
        split at h
        · exact .inl (hfault _ (by simp) h)
        rw [runOn_bind, runOn_look] at h
        simp only at h
        split at h
        · exact .inl (hfault _ (by simp) h)
        split at h
        · rcases eraseAt_cases h with ⟨rfl, rfl⟩ | ⟨-, front, name, rfl, rfl⟩
          · exact .inl ⟨rfl, by simp, by simp⟩
          · exact .inr ⟨front, name, children, rfl, rfl⟩
        · exact .inl (hfault _ (by simp) h)
      · obtain ⟨rfl, rfl⟩ := Prod.mk.inj h
        exact .inl ⟨rfl, by simp, by simp⟩

/-- An empty folder is removed by a path that ends in its name. -/
theorem runOn_removeFolder {front : List String} {name : String}
    (hresolve : w.resolve false path = .ok (.taken (front ++ [name]) (.folder [])))
    (hdot : lastName path ≠ ".") (hdots : lastName path ≠ "..")
    (hslash : Path.dropSlashes path = path) :
    (removeFolder path).runOn w = (.ok (), { w with top := Entry.erase front name w.top }) := by
  have hlink : w.isLink (Path.dropSlashes path) = false := by
    rw [hslash, Workspace.isLink, hresolve]
  rw [removeFolder, runOn_bind, runOn_resolve, hresolve]
  simp only [if_neg hdot, if_neg hdots]
  rw [runOn_bind, runOn_look]
  simp only [hlink]
  exact runOn_eraseAt front name w

/-- What has been emptied is then removed by its path, and it is no error if nothing is found. -/
theorem exists_removeFolder_of_removeTree {children : List (String × Entry)}
    {r : Except FileFault Unit}
    (hresolve : w.resolve false path = .ok (.taken place (.folder children)))
    (h : (removeTree path).runOn w = (r, w')) :
    ∃ removed, (removeFolder path).runOn { w with top := changeFolder (fun _ => []) place w.top }
        = (removed, w') ∧ (r = removed ∨ removed = .error .notFound) := by
  rw [removeTree, runOn_bind, runOn_resolve, hresolve] at h
  simp only at h
  rw [runOn_bind] at h
  have hafter : (attempt (removeFolder path) >>= _).runOn
      { w with top := changeFolder (fun _ => []) place w.top } = (r, w') := h
  rw [runOn_bind, runOn_attempt] at hafter
  cases hremove : (removeFolder path).runOn
      { w with top := changeFolder (fun _ => []) place w.top } with
  | mk removed last =>
      rw [hremove] at hafter
      cases removed with
      | ok _ =>
          obtain ⟨rfl, rfl⟩ := Prod.mk.inj hafter
          exact ⟨_, rfl, .inl rfl⟩
      | error fault =>
          cases fault with
          | notFound =>
              obtain ⟨rfl, rfl⟩ := Prod.mk.inj hafter
              exact ⟨_, rfl, .inr rfl⟩
          | _ =>
              obtain ⟨rfl, rfl⟩ := Prod.mk.inj hafter
              exact ⟨_, rfl, .inl rfl⟩

/-- **Removing a tree** does nothing, empties the folder that its path leads to, or erases what its
path leads to, which is no file. -/
theorem removeTree_cases {r : Except FileFault Unit} (h : (removeTree path).runOn w = (r, w')) :
    (w' = w ∧ r ≠ .ok ()) ∨ ∃ place entry, w.resolve false path = .ok (.taken place entry)
      ∧ (∀ content, entry ≠ .file content)
      ∧ (w' = { w with top := changeFolder (fun _ => []) place w.top }
        ∨ ∃ front name, place = front ++ [name]
          ∧ w' = { w with top := Entry.erase front name w.top }) := by
  cases hresolve : w.resolve false path with
  | error fault =>
      rw [removeTree, runOn_bind, runOn_resolve, hresolve] at h
      obtain ⟨rfl, rfl⟩ := Prod.mk.inj h
      exact .inl ⟨rfl, by simp⟩
  | ok spot =>
      rcases spot with ⟨place, content | target | children⟩ | ⟨place, name, asFolder⟩
      · rw [removeTree, runOn_bind, runOn_resolve, hresolve] at h
        obtain ⟨rfl, rfl⟩ := Prod.mk.inj h
        exact .inl ⟨rfl, by simp⟩
      · rw [removeTree, runOn_bind, runOn_resolve, hresolve] at h
        rcases eraseAt_cases h with ⟨rfl, rfl⟩ | ⟨-, front, name, rfl, rfl⟩
        · exact .inl ⟨rfl, by simp⟩
        · exact .inr ⟨_, _, rfl, by simp, .inr ⟨front, name, rfl, rfl⟩⟩
      · refine .inr ⟨place, _, rfl, by simp, ?_⟩
        obtain ⟨removed, hremove, -⟩ := exists_removeFolder_of_removeTree hresolve h
        rcases removeFolder_cases hremove with
          ⟨hsame, -⟩ | ⟨front, name, kids, hagain, herase⟩
        · exact .inl hsame
        · obtain ⟨rfl, rfl⟩ := Workspace.emptied_of_resolve hresolve hagain
          refine .inr ⟨front, name, rfl, ?_⟩
          rw [herase]
          exact congrArg (fun top => ({ w with top } : Workspace)) (erase_clear front name w.top)
      · rw [removeTree, runOn_bind, runOn_resolve, hresolve] at h
        obtain ⟨rfl, rfl⟩ := Prod.mk.inj h
        exact .inl ⟨rfl, by simp⟩

/-- A folder whose path ends in its name is erased when it is removed, or it is emptied and its path
leads there no longer. -/
theorem removeTree_folder_cases {front : List String} {name : String}
    {children : List (String × Entry)} {r : Except FileFault Unit}
    (hresolve : w.resolve false path = .ok (.taken (front ++ [name]) (.folder children)))
    (hdot : lastName path ≠ ".") (hdots : lastName path ≠ "..")
    (hslash : Path.dropSlashes path = path) (h : (removeTree path).runOn w = (r, w')) :
    w' = { w with top := Entry.erase front name w.top }
      ∨ w' = { w with top := changeFolder (fun _ => []) (front ++ [name]) w.top }
        ∧ ∀ kids, w'.resolve false path ≠ .ok (.taken (front ++ [name]) (.folder kids)) := by
  let cleared : Workspace := { w with top := changeFolder (fun _ => []) (front ++ [name]) w.top }
  obtain ⟨removed, hremove, -⟩ := exists_removeFolder_of_removeTree hresolve h
  have hplace : ∀ {q kids}, cleared.resolve false path = .ok (.taken q (.folder kids)) →
      q = front ++ [name] ∧ kids = [] := Workspace.emptied_of_resolve hresolve
  by_cases hagain : cleared.resolve false path = .ok (.taken (front ++ [name]) (.folder []))
  · have herased := hremove.symm.trans (runOn_removeFolder hagain hdot hdots hslash)
    refine .inl ((congrArg Prod.snd herased).trans ?_)
    exact congrArg (fun top => ({ w with top } : Workspace)) (erase_clear front name w.top)
  · have hnot : ∀ q kids, cleared.resolve false path ≠ .ok (.taken q (.folder kids)) := by
      intro q kids hq
      obtain ⟨rfl, rfl⟩ := hplace hq
      exact hagain hq
    rcases removeFolder_cases hremove with ⟨rfl, -⟩ | ⟨front', name', kids, hq, -⟩
    · exact .inr ⟨rfl, hnot _⟩
    · exact absurd hq (hnot _ _)

/-- Removing a tree only takes away. -/
theorem face?_removeTree {r : Except FileFault Unit} (h : (removeTree path).runOn w = (r, w'))
    (q : List String) : w'.top.face? q = w.top.face? q ∨ w'.top.face? q = none := by
  rcases removeTree_cases h with ⟨rfl, -⟩ | ⟨place, entry, -, -, rfl | ⟨front, name, -, rfl⟩⟩
  · exact .inl rfl
  · rw [face?_clear]
    split
    · exact .inr rfl
    · exact .inl rfl
  · rw [face?_erase]
    split
    · exact .inr rfl
    · exact .inl rfl

/-- **Where a tree has been removed** the path leads to no folder. -/
theorem resolve_removeTree_ne (h : (removeTree path).runOn w = (.ok (), w')) (q : List String)
    (kids : List (String × Entry)) : w'.resolve true path ≠ .ok (.taken q (.folder kids)) := by
  intro hfolder
  have hhere : w'.here = w.here := by
    rcases removeTree_cases h with ⟨rfl, -⟩ | ⟨_, _, -, -, rfl | ⟨_, _, -, rfl⟩⟩ <;> rfl
  -- All on the way there was there before, so the path leads where it led.
  have hon : ∀ p, w'.terrain.ComesBy path p → w.top.face? p = w'.top.face? p := fun p hp =>
    ((face?_removeTree h p).resolve_right (Workspace.face?_of_comesBy hfolder hp)).symm
  have hsame := Workspace.sameSpot_resolve hhere.symm hon false
  have hthere : ∀ {place : List String} {entry : Entry},
      w.resolve false path = .ok (.taken place entry) →
      ∃ again, w'.resolve false path = .ok (.taken place again) ∧ entry.face = again.face
        ∧ w'.top.face? place ≠ none := by
    intro place entry hbefore
    rw [hbefore] at hsame
    generalize hafter : w'.resolve false path = result at hsame
    cases hsame with
    | @taken _ again _ hface =>
        have hagain : w'.top.get? place = some again :=
          Workspace.holds_of_walk (Workspace.walk_of_resolve hafter)
        exact ⟨again, rfl, hface, by simp [face?, hagain]⟩
  have hrun := h
  rw [removeTree, runOn_bind, runOn_resolve] at h
  cases hresolve : w.resolve false path with
  | error fault =>
      rw [hresolve] at h
      cases congrArg Prod.fst h
  | ok spot =>
      rw [hresolve] at h
      rcases spot with ⟨place, content | target | children⟩ | ⟨place, name, asFolder⟩
      · cases congrArg Prod.fst h
      · obtain ⟨again, -, -, hleft⟩ := hthere hresolve
        rcases eraseAt_cases h with ⟨-, hbusy⟩ | ⟨-, front, name, rfl, rfl⟩
        · cases hbusy
        · rw [face?_erase, if_pos (List.prefix_refl _)] at hleft
          exact hleft rfl
      · obtain ⟨again, hagain, hface, hleft⟩ := hthere hresolve
        obtain ⟨removed, hremove, hok⟩ := exists_removeFolder_of_removeTree hresolve hrun
        rcases removeFolder_cases hremove with ⟨rfl, hfailed, hnothing⟩ |
          ⟨front, name, inside, hinside, rfl⟩
        · obtain ⟨others, rfl⟩ : ∃ others, again = .folder others := by
            cases again <;> simp_all [face]
          exact hnothing (hok.resolve_left hfailed.symm) _ _ hagain
        · obtain ⟨rfl, -⟩ := Workspace.emptied_of_resolve hresolve hinside
          rw [face?_erase, if_pos (List.prefix_refl _)] at hleft
          exact hleft rfl
      · cases congrArg Prod.fst h

/-- Removing a tree keeps a file that is not in the folder that its path leads to. -/
theorem keeps_removeTree {q : List String} {content : ByteArray} {r : Except FileFault Unit}
    (hfile : w.top.face? q = some (.file content))
    (hout : ∀ place children, w.resolve false path = .ok (.taken place (.folder children)) →
      ¬ place <+: q)
    (h : (removeTree path).runOn w = (r, w')) : w'.top.face? q = some (.file content) := by
  rcases removeTree_cases h with ⟨rfl, -⟩ | ⟨place, entry, hresolve, hnone, heffect⟩
  · exact hfile
  · have hnot : ¬ place <+: q := by
      cases entry with
      | folder children => exact hout place children hresolve
      | file other => exact absurd rfl (hnone other)
      | link target =>
          -- A link has nothing below it.
          have hlink : w.top.face? place = some (.link target) :=
            face?_eq_link_iff.mpr (Workspace.holds_of_walk (Workspace.walk_of_resolve hresolve))
          rintro ⟨_ | ⟨n, more⟩, rfl⟩
          · rw [List.append_nil, hlink] at hfile
            cases hfile
          · rw [face?_below (by simp [hlink])] at hfile
            cases hfile
    rcases heffect with rfl | ⟨front, name, rfl, rfl⟩
    · rw [face?_clear, if_neg fun hbelow => hnot hbelow.1, hfile]
    · rw [face?_erase, if_neg hnot, hfile]

/-- Removing a tree leaves a tidy tree. -/
theorem tidy_removeTree {r : Except FileFault Unit} (htidy : w.top.Tidy)
    (h : (removeTree path).runOn w = (r, w')) : w'.top.Tidy := by
  rcases removeTree_cases h with ⟨rfl, -⟩ | ⟨place, -, -, -, rfl | ⟨front, name, -, rfl⟩⟩
  · exact htidy
  · exact htidy.clear place
  · exact htidy.erase front name

theorem does_removeTree
    (h : ∀ q, t.aim false path = some q → ∀ p, q <+: p → may p ∧ t.links p = none) :
    Does t may make (removeTree path) fun _ => True := by
  intro w r w' ht htidy hrun
  refine ⟨?_, fun _ _ => trivial⟩
  rcases removeTree_cases hrun with ⟨rfl, -⟩ | ⟨place, entry, hresolve, -, heffect⟩
  · exact .refl _ _ _
  · have hbelow := h place (ht ▸ Workspace.aim_of_resolve hresolve)
    have hlinks : ∀ q, place <+: q → w.link? q = none := fun q hq => by
      have := (hbelow q hq).2
      rwa [← ht] at this
    rcases heffect with rfl | ⟨front, name, rfl, rfl⟩
    · exact (Workspace.alters_clear hlinks).mono (fun q hq => (hbelow q hq).1) (by simp)
    · exact (Workspace.alters_erase hlinks).mono (fun q hq => (hbelow q hq).1) (by simp)

end FileAction

end CanvasFlutter
