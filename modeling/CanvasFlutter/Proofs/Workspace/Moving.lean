import CanvasFlutter.Proofs.Workspace.Removal

namespace CanvasFlutter

/-!
# `CanvasFlutter.Proofs.Workspace.Moving` — moving a file or a link to one

Paths go on behind a link, so moving one can change where they lead. Not if the link leads to a file
and is moved within its folder: it leads there still, or else nowhere, and no path goes on behind a
file. So what is a folder at the end of a path afterwards was at its end before.

## Contents
- **Links.** `Workspace.walkLink`; `exists_walkLink_of_trail`: a walk to a folder goes on behind each
  link that it comes by.
- **Moving.** `walkLink_ne_folder`; `Moved.exists_resolve`: moving bends no path to a folder.
-/

open Entry

namespace Workspace

variable {w v : Workspace} {follow : Bool} {fuel fuel' : Nat} {place names front back q : List String}
variable {name n target : String} {spot : Spot} {kids : List (String × Entry)} {content : ByteArray}

/-! ## Links -/

/-- Where a walk goes on behind a link in a folder. -/
def walkLink (w : Workspace) (fuel : Nat) (front : List String) (target : String) :
    Except FileFault Spot :=
  w.walk true fuel (if Path.isAbsolute target then [] else front) (Path.parts target)

/-- A walk that leads somewhere leads there if more links may be followed. -/
theorem walk_more (h : w.walk follow fuel place names = .ok spot) (hfuel : fuel ≤ fuel') :
    w.walk follow fuel' place names = .ok spot := by
  fun_induction Workspace.walk w follow fuel place names generalizing fuel' with
  | case1 fuel place entry hhere => rwa [walk_nil hhere]
  | case3 fuel place name rest children hhere hblank ih =>
      rw [walk_blank hhere hblank]
      exact ih h hfuel
  | case4 fuel place rest children hhere hblank ih =>
      rw [walk_up hhere]
      exact ih h hfuel
  | case6 fuel place name rest children hhere hblank hup hlong hnone hall =>
      rwa [walk_free hhere hblank hup hlong hnone hall]
  | case8 fuel place name rest children hhere hblank hup hlong target hlink hlast =>
      rwa [walk_lastLink hhere hblank hup hlong hlink hlast]
  | case10 place name rest children hhere hblank hup hlong target hlink hlast fuel next =>
      rename_i ih
      obtain ⟨more, rfl⟩ : ∃ more, fuel' = more + 1 := ⟨fuel' - 1, by omega⟩
      rw [walk_link hhere hblank hup hlong hlink hlast]
      exact ih h (by omega)
  | case11 fuel place name rest children hhere hblank hup hlong entry hnolink hentry ih =>
      rw [walk_child hhere hblank hup hlong hentry hnolink]
      exact ih h hfuel
  | _ => cases h

/-- Where names lead to a folder, so do the first of them. -/
theorem exists_walk_of_append
    (h : w.walk true fuel place (front ++ back) = .ok (.taken q (.folder kids))) :
    ∃ p children, w.walk true fuel place front = .ok (.taken p (.folder children)) := by
  by_cases hback : back.filter Terrain.isStep = []
  · exact ⟨q, kids, walk_congr (by rw [List.filter_append, hback, List.append_nil]) h⟩
  · exact exists_walk_front hback h

/-- **A walk to a folder goes on to one** behind each link that it comes by. -/
theorem exists_walkLink_of_trail (h : w.walk true fuel place names = .ok (.taken q (.folder kids)))
    {p : List String} (hp : w.terrain.Trail fuel place (names.filter Terrain.isStep) p)
    (hlink : w.top.face? p = some (.link target)) :
    ∃ fuel' < fuel, ∃ q' children,
      w.walkLink fuel' p.dropLast target = .ok (.taken q' (.folder children)) := by
  have hfolder : ∀ {here : List String} {children : List (String × Entry)},
      w.top.get? here = some (.folder children) → w.top.face? here ≠ some (.link target) :=
    fun hhere heq => by simp [face?, hhere, face] at heq
  fun_induction Workspace.walk w true fuel place names with
  | case1 fuel place entry hhere =>
      cases hp with
      | here =>
          obtain ⟨-, rfl⟩ := Spot.taken.inj (Except.ok.inj h)
          exact absurd hlink (hfolder hhere)
  | case3 fuel place name rest children hhere hblank ih =>
      rw [Terrain.filter_isStep_of_blank hblank] at hp
      exact ih h hp
  | case4 fuel place rest children hhere hblank ih =>
      rw [Terrain.filter_isStep_of_step hblank] at hp
      cases hp with
      | here => exact absurd hlink (hfolder hhere)
      | up hrest => exact ih h hrest
      | next hname => exact absurd rfl hname
      | down hname _ _ => exact absurd rfl hname
      | onward hname _ _ => exact absurd rfl hname
  | case10 place name rest children hhere hblank hup hlong found hfound hlast fuel next ih =>
      have hthere := links_child hhere name
      rw [hfound] at hthere
      rw [Terrain.filter_isStep_of_step hblank] at hp
      cases hp with
      | here => exact absurd hlink (hfolder hhere)
      | up _ => exact absurd rfl hup
      | next _ =>
          rw [face?_child hhere, hfound] at hlink
          obtain rfl : found = target := by simpa [face] using hlink
          obtain ⟨p, inside, hwalk⟩ := exists_walk_of_append h
          refine ⟨fuel, Nat.lt_succ_self fuel, p, inside, ?_⟩
          rwa [walkLink, List.dropLast_concat]
      | down _ hnone _ => cases hnone.symm.trans hthere
      | onward _ hother hrest =>
          obtain rfl := Option.some.inj (hother.symm.trans hthere)
          obtain ⟨less, hless, hon⟩ := ih h (by rwa [List.filter_append])
          exact ⟨less, Nat.lt_succ_of_lt hless, hon⟩
  | case11 fuel place name rest children hhere hblank hup hlong entry hnolink hentry ih =>
      have hnone := links_child_eq_none hhere hentry hnolink
      rw [Terrain.filter_isStep_of_step hblank] at hp
      cases hp with
      | here => exact absurd hlink (hfolder hhere)
      | up _ => exact absurd rfl hup
      | next _ => cases (link?_eq_some_iff.mpr hlink).symm.trans hnone
      | down _ _ hrest => exact ih h hrest
      | onward _ hother _ => cases hother.symm.trans hnone
  | _ => simp at h

/-- Where a path that ends at a link leads to a file, so does the link. -/
theorem exists_walkLink_of_walk (h : w.walk false fuel place names = .ok (.taken q (.link target)))
    (hfollow : w.walk true fuel place names = .ok (.taken back (.file content))) :
    ∃ fuel', w.walkLink fuel' q.dropLast target = .ok (.taken back (.file content)) := by
  fun_induction Workspace.walk w false fuel place names with
  | case1 fuel place entry hhere =>
      obtain ⟨-, rfl⟩ := Spot.taken.inj (Except.ok.inj h)
      rw [walk_nil hhere] at hfollow
      simp at hfollow
  | case3 fuel place name rest children hhere hblank ih =>
      rw [walk_blank hhere hblank] at hfollow
      exact ih h hfollow
  | case4 fuel place rest children hhere hblank ih =>
      rw [walk_up hhere] at hfollow
      exact ih h hfollow
  | case8 fuel place name rest children hhere hblank hup hlong found hfound hlast =>
      obtain ⟨rfl, heq⟩ := Spot.taken.inj (Except.ok.inj h)
      obtain rfl : found = target := by simpa using heq
      obtain rfl : rest = [] := by simpa using hlast
      cases fuel with
      | zero =>
          rw [walk_linkless hhere hblank hup hlong hfound (by simp)] at hfollow
          cases hfollow
      | succ fuel =>
          rw [walk_link hhere hblank hup hlong hfound (by simp), List.append_nil] at hfollow
          refine ⟨fuel, ?_⟩
          rwa [walkLink, List.dropLast_concat]
  | case10 place name rest children hhere hblank hup hlong found hfound hlast fuel next ih =>
      rw [walk_link hhere hblank hup hlong hfound (by simp)] at hfollow
      exact ih h hfollow
  | case11 fuel place name rest children hhere hblank hup hlong entry hnolink hentry ih =>
      rw [walk_child hhere hblank hup hlong hentry hnolink] at hfollow
      exact ih h hfollow
  | _ => simp at h

/-! ## Moving -/

/-- A link that led to a file leads to no folder once it has another name in its folder. -/
theorem walkLink_ne_folder (hgone : v.top.face? (front ++ [n]) = none)
    (hplaced : v.top.face? (front ++ [name]) = some (.link target))
    (hsame : ∀ p, p ≠ front ++ [name] → p ≠ front ++ [n] → v.top.face? p = w.top.face? p)
    (hfile : w.walkLink fuel front target = .ok (.taken back (.file content))) :
    v.walkLink fuel' front target ≠ .ok (.taken q (.folder kids)) := by
  induction fuel' using Nat.strongRecOn generalizing q kids with
  | ind fuel' ih =>
      intro hfolder
      -- A walk that comes by the link again would have had more links to follow, so it does not.
      have hon : ∀ p, v.terrain.Trail fuel' (if Path.isAbsolute target then [] else front)
          ((Path.parts target).filter Terrain.isStep) p → w.top.face? p = v.top.face? p := by
        intro p hp
        have hthere := face?_of_trail hfolder hp (by simp)
        refine (hsame p ?_ ?_).symm
        · rintro rfl
          obtain ⟨less, hless, q', children, hagain⟩ := exists_walkLink_of_trail hfolder hp hplaced
          rw [List.dropLast_concat] at hagain
          exact ih less hless hagain
        · rintro rfl
          exact hthere hgone
      have hspot : SameSpot (v.walkLink fuel' front target) (w.walkLink fuel' front target) :=
        sameSpot_walk hon
      rw [hfolder] at hspot
      generalize hwalk : w.walkLink fuel' front target = result at hspot
      cases hspot with
      | @taken _ _ other hface =>
          have hfirst := walk_more hwalk (Nat.le_max_left fuel' fuel)
          have hsecond := walk_more hfile (Nat.le_max_right fuel' fuel)
          obtain ⟨-, rfl⟩ := Spot.taken.inj (Except.ok.inj (hfirst.symm.trans hsecond))
          cases hface

end Workspace

namespace FileAction

variable {w w' : Workspace} {source target path name n : String} {front place q : List String}
variable {entry : Entry} {content : ByteArray} {kids : List (String × Entry)}

/-- What is moved is no folder if its path leads to a file. -/
theorem Moved.face_ne_folder (h : Moved source target front name entry w w')
    (hfile : w.resolve true source = .ok (.taken place (.file content))) : entry.face ≠ .folder := by
  obtain ⟨back, m, horigin, -⟩ := h.source
  intro hface
  cases entry with
  | folder children =>
      have hboth := hfile.symm.trans (Workspace.resolve_follow horigin (by simp))
      simp at hboth
  | _ => cases hface

/-- **Moving a file, or a link to one, bends no path to a folder.** -/
theorem Moved.exists_resolve (h : Moved source target front name entry w w') (htidy : w.top.Tidy)
    (haim : w.terrain.aim false target = some (front ++ [name]))
    (hsource : w.terrain.aim false source = some (front ++ [n]))
    (hfile : w.resolve true source = .ok (.taken place (.file content)))
    (hresolve : w'.resolve false path = .ok (.taken q (.folder kids))) :
    ∃ before, w.resolve false path = .ok (.taken q before) := by
  have hhere : w'.here = w.here := by
    obtain ⟨⟨back, m, -, -, rfl⟩, -⟩ := h
    rfl
  obtain ⟨back, m, horigin, -⟩ := h.source
  obtain ⟨rfl, hm⟩ :=
    List.append_inj' (Option.some.inj (hsource.symm.trans (Workspace.aim_of_resolve horigin))) rfl
  obtain rfl : n = m := by simpa using hm
  have hentry := h.face_ne_folder hfile
  obtain ⟨hplaced, hgone, -⟩ := h.face? hentry htidy haim hsource
  have hfollow : w'.resolve true path = .ok (.taken q (.folder kids)) :=
    Workspace.resolve_follow hresolve (by simp)
  have hthere : w'.top.get? q = some (.folder kids) :=
    Workspace.holds_of_walk (Workspace.walk_of_resolve hresolve)
  have hon : ∀ p, w'.terrain.ComesBy path p → w.top.face? p = w'.top.face? p := by
    intro p hp
    have hsome := Workspace.face?_of_comesBy hfollow hp
    have hback : p ≠ front ++ [n] := by
      rintro rfl
      exact hsome hgone
    refine (h.face?_of_ne hentry htidy haim hsource ?_ hback).symm
    rintro rfl
    rcases Workspace.face_of_trail (Workspace.walk_of_resolve hfollow) hp with
      heq | hfolder | ⟨found, hlink⟩
    · rw [heq, Spot.place, face?_eq_folder_iff.mpr ⟨kids, hthere⟩] at hplaced
      exact hentry (Option.some.inj hplaced).symm
    · exact hentry (Option.some.inj (hplaced.symm.trans hfolder))
    · -- It is a link that led to a file, and the path would go on behind it.
      obtain ⟨less, -, q', children, hwalk⟩ :=
        Workspace.exists_walkLink_of_trail (Workspace.walk_of_resolve hfollow) hp hlink
      rw [List.dropLast_concat] at hwalk
      obtain rfl : entry = .link found := by
        have hface := Option.some.inj (hplaced.symm.trans hlink)
        cases entry <;> simp_all [face]
      obtain ⟨fuel, hbehind⟩ := Workspace.exists_walkLink_of_walk
        (Workspace.walk_of_resolve horigin) (Workspace.walk_of_resolve hfile)
      rw [List.dropLast_concat] at hbehind
      refine Workspace.walkLink_ne_folder hgone hlink (fun p hat hfrom => ?_) hbehind hwalk
      exact h.face?_of_ne hentry htidy haim hsource hat hfrom
  obtain ⟨before, hbefore, -⟩ := Workspace.exists_resolve_of_comesBy hhere hon hresolve
  exact ⟨before, hbefore⟩

end FileAction

end CanvasFlutter
