import CanvasFlutter.Proofs.Workspace.Descent

namespace CanvasFlutter

/-!
# `CanvasFlutter.Proofs.Workspace.Trail` — the places that a path comes by

A walk looks at the places that it comes by, those on the way of a link's target included, and at
nothing else. So two workspaces in which these places have the same faces cannot be told apart by
the path, and what a path leads to has all of its trail in front of it.

## Contents
- **Trails.** `Terrain.Trail`, `Terrain.ComesBy`; `comesBy_join`: below a folder without links.
- **Walks.** `face?_of_trail`: the trail of a walk that ends somewhere is there; `SameSpot`,
  `sameSpot_walk`: a walk sees no more than its trail.
- **Folders.** `face?_of_comesBy_makeFolders`: the trail of a folder that has been made is there.
-/

open Entry

/-! ## Trails -/

namespace Path

/-- A step that does not go up is a name. -/
theorem properName_of_mem_steps {path name : String} (h : name ∈ steps path) (hup : name ≠ "..") :
    ProperName name := by
  obtain ⟨hmem, hstep⟩ := List.mem_filter.mp h
  have hblank : ¬ (name = "" ∨ name = ".") := fun hor => by
    rw [Terrain.isStep_eq_false_iff.mpr hor] at hstep
    cases hstep
  exact ⟨fun heq => hblank (.inl heq), fun heq => hblank (.inr heq), hup,
    no_slash_of_mem_parts hmem⟩

end Path

namespace Terrain

/-- The places that steps come by from a place, with as many links as `fuel` says. -/
inductive Trail (t : Terrain) : (fuel : Nat) → (place steps q : List String) → Prop
  | here {fuel : Nat} {place steps : List String} : Trail t fuel place steps place
  | up {fuel : Nat} {place steps q : List String} (rest : Trail t fuel place.dropLast steps q) :
      Trail t fuel place (".." :: steps) q
  | next {fuel : Nat} {place steps : List String} {name : String} (hname : name ≠ "..") :
      Trail t fuel place (name :: steps) (place ++ [name])
  | down {fuel : Nat} {place steps q : List String} {name : String} (hname : name ≠ "..")
      (hlink : t.links (place ++ [name]) = none) (rest : Trail t fuel (place ++ [name]) steps q) :
      Trail t fuel place (name :: steps) q
  | onward {fuel : Nat} {place steps q : List String} {name target : String} (hname : name ≠ "..")
      (hlink : t.links (place ++ [name]) = some target)
      (rest : Trail t fuel (if Path.isAbsolute target then [] else place)
        (Path.steps target ++ steps) q) : Trail t (fuel + 1) place (name :: steps) q

variable {t : Terrain} {fuel : Nat} {place steps names front q : List String} {path : String}

/-- What steps come by they come by with more steps behind them. -/
theorem Trail.append (h : t.Trail fuel place steps q) (more : List String) :
    t.Trail fuel place (steps ++ more) q := by
  induction h with
  | here => exact .here
  | up _ ih => exact .up ih
  | next hname => exact .next hname
  | down hname hlink _ ih => exact .down hname hlink ih
  | onward hname hlink _ ih =>
      rw [List.append_assoc] at ih
      exact .onward hname hlink ih

/-- Names that meet no link come by what they lead down through. -/
theorem Trail.exists_front (hnames : ∀ n ∈ names, ProperName n) (hclear : t.IsClear place names)
    (h : t.Trail fuel place names q) : ∃ front, front <+: names ∧ q = place ++ front := by
  induction names generalizing place with
  | nil =>
      cases h with
      | here => exact ⟨[], List.prefix_refl _, by simp⟩
  | cons name rest ih =>
      obtain ⟨hnone, hrest⟩ := isClear_cons hclear
      cases h with
      | here => exact ⟨[], List.nil_prefix, by simp⟩
      | up _ => exact absurd rfl (hnames ".." (by simp)).ne_dots
      | next _ => exact ⟨[name], by simp, rfl⟩
      | down _ _ h =>
          obtain ⟨front, hfront, rfl⟩ := ih (fun n hn => hnames n (by simp [hn])) hrest h
          exact ⟨name :: front, by simpa using hfront, by simp⟩
      | onward _ hlink _ => simp [hnone] at hlink

/-- Behind steps that point at a place, names that meet no link come by what is below it. -/
theorem Trail.append_cases (hsteps : ∀ n ∈ steps, isStep n = true)
    (hnames : ∀ n ∈ names, ProperName n)
    (hclear : ∀ p, t.aimFrom true fuel place steps = some p → t.IsClear p names)
    (h : t.Trail fuel place (steps ++ names) q) : t.Trail fuel place steps q
      ∨ ∃ p front, t.aimFrom true fuel place steps = some p ∧ front <+: names ∧ front ≠ []
        ∧ q = p ++ front := by
  -- Without steps in front it is the place itself or something below it.
  have hlone : ∀ {fuel : Nat} {place q : List String}, t.IsClear place names →
      t.Trail fuel place names q → t.Trail fuel place [] q
        ∨ ∃ p front, t.aimFrom true fuel place [] = some p ∧ front <+: names ∧ front ≠ []
          ∧ q = p ++ front := by
    intro fuel place q hclear h
    obtain ⟨front, hfront, rfl⟩ := h.exists_front hnames hclear
    by_cases hne : front = []
    · subst hne
      rw [List.append_nil]
      exact .inl .here
    · exact .inr ⟨place, front, by rw [aimFrom], hfront, hne, rfl⟩
  have hpass : ∀ {name : String} {rest : List String}, (∀ n ∈ name :: rest, isStep n = true) →
      ¬ (name = "" ∨ name = ".") ∧ ∀ n ∈ rest, isStep n = true := by
    intro name rest hall
    refine ⟨fun hor => ?_, fun n hn => hall n (by simp [hn])⟩
    have hstep := hall name (by simp)
    rw [isStep_eq_false_iff.mpr hor] at hstep
    cases hstep
  generalize hall : steps ++ names = all at h
  induction h generalizing steps with
  | here => exact .inl .here
  | up rest ih =>
      cases steps with
      | nil =>
          obtain rfl : names = _ := hall
          exact hlone (hclear _ (by rw [aimFrom])) (.up rest)
      | cons name steps =>
          obtain ⟨rfl, rfl⟩ := List.cons.inj hall
          obtain ⟨hblank, hrest⟩ := hpass hsteps
          rw [aimFrom_up] at hclear ⊢
          exact (ih hrest hclear rfl).imp .up id
  | next hname =>
      cases steps with
      | nil =>
          obtain rfl : names = _ := hall
          exact hlone (hclear _ (by rw [aimFrom])) (.next hname)
      | cons name steps =>
          obtain ⟨rfl, rfl⟩ := List.cons.inj hall
          exact .inl (.next hname)
  | down hname hlink rest ih =>
      cases steps with
      | nil =>
          obtain rfl : names = _ := hall
          exact hlone (hclear _ (by rw [aimFrom])) (.down hname hlink rest)
      | cons name steps =>
          obtain ⟨rfl, rfl⟩ := List.cons.inj hall
          obtain ⟨hblank, hrest⟩ := hpass hsteps
          rw [aimFrom_child hblank hname hlink] at hclear ⊢
          exact (ih hrest hclear rfl).imp (.down hname hlink) id
  | @onward fuel place _ q _ target hname hlink rest ih =>
      cases steps with
      | nil =>
          obtain rfl : names = _ := hall
          exact hlone (hclear _ (by rw [aimFrom])) (.onward hname hlink rest)
      | cons name steps =>
          obtain ⟨rfl, rfl⟩ := List.cons.inj hall
          obtain ⟨hblank, hrest⟩ := hpass hsteps
          have haim : t.aimFrom true (fuel + 1) place (name :: steps)
              = t.aimFrom true fuel (if Path.isAbsolute target then [] else place)
                (Path.steps target ++ steps) := by
            rw [aimFrom_link hblank hname hlink (by simp)]
            refine aimFrom_congr ?_
            rw [List.filter_append, List.filter_append, Path.steps, List.filter_filter]
            simp
          rw [haim] at hclear ⊢
          have hstep : ∀ n ∈ Path.steps target ++ steps, isStep n = true := by
            intro n hn
            rcases List.mem_append.mp hn with hn | hn
            · exact (List.mem_filter.mp hn).2
            · exact hrest n hn
          exact (ih hstep hclear (List.append_assoc _ _ _)).imp (.onward hname hlink) id

/-- Following a path, links included, comes by a place. -/
def ComesBy (t : Terrain) (path : String) (q : List String) : Prop :=
  t.Trail maxLinks (t.start path) (Path.steps path) q

/-- Where names point from a place is on their trail. -/
theorem trail_of_aimFrom (h : t.aimFrom true fuel place names = some q) :
    t.Trail fuel place (names.filter isStep) q := by
  fun_induction aimFrom t true fuel place names with
  | case1 fuel place =>
      obtain rfl := Option.some.inj h
      exact .here
  | case2 fuel place name rest hblank ih =>
      rw [filter_isStep_of_blank hblank]
      exact ih h
  | case3 fuel place rest hblank ih =>
      rw [filter_isStep_of_step hblank]
      exact .up (ih h)
  | case4 fuel place name rest hblank hup hlink ih =>
      rw [filter_isStep_of_step hblank]
      exact .down hup hlink (ih h)
  | case5 fuel place name rest hblank hup target hlink hlast => simp at hlast
  | case6 place name rest hblank hup target hlink hlast => cases h
  | case7 place name rest hblank hup target hlink hlast fuel next ih =>
      have hrest := ih h
      rw [List.filter_append] at hrest
      rw [filter_isStep_of_step hblank]
      exact .onward hup hlink hrest

/-- What a path leads through it comes by. -/
theorem comesBy_of_leadsThrough (h : t.LeadsThrough path q) : t.ComesBy path q := by
  obtain ⟨front, ⟨back, hback⟩, haim⟩ := h
  have hall : ∀ n ∈ front, isStep n = true := fun n hn => by
    have hmem : n ∈ Path.steps path := by simp [← hback, hn]
    exact (List.mem_filter.mp hmem).2
  have htrail := trail_of_aimFrom haim
  rw [List.filter_eq_self.mpr hall] at htrail
  rw [ComesBy, ← hback]
  exact htrail.append back

/-- A path comes by what its parents come by. -/
theorem comesBy_of_steps {ancestor : String} (hsteps : Path.steps ancestor <+: Path.steps path)
    (habsolute : Path.isAbsolute ancestor = Path.isAbsolute path) (h : t.ComesBy ancestor q) :
    t.ComesBy path q := by
  obtain ⟨more, hmore⟩ := hsteps
  have hstart : t.start ancestor = t.start path := by
    rw [start, start, habsolute]
  rw [ComesBy, ← hmore, ← hstart]
  exact h.append more

/-- Where there are no links a path that does not go up points where its steps say. -/
theorem aim_of_linkless (hlinks : ∀ q, t.links q = none) (hdots : ".." ∉ Path.steps path) :
    t.aim true path = some (t.start path ++ Path.steps path) := by
  rw [aim_eq_steps]
  exact aimFrom_proper (fun n hn => Path.properName_of_mem_steps hn fun heq => hdots (heq ▸ hn)) fun front _ _ => hlinks _

/-- So it comes by that place and those above it and by nothing else. -/
theorem prefix_of_comesBy (hlinks : ∀ q, t.links q = none) (hdots : ".." ∉ Path.steps path)
    {p : List String} (haim : t.aim true path = some p) (h : t.ComesBy path q) : q <+: p := by
  rw [aim_of_linkless hlinks hdots] at haim
  obtain rfl := Option.some.inj haim
  obtain ⟨front, hfront, rfl⟩ :=
    h.exists_front (fun n hn => Path.properName_of_mem_steps hn fun heq => hdots (heq ▸ hn))
      fun front _ _ => hlinks _
  exact (List.prefix_append_right_inj _).mpr hfront

/-- A path within a folder comes by what the folder's path comes by, and then goes down. -/
theorem comesBy_join {folder : String} (hpath : ∀ n ∈ Path.parts path, ProperName n)
    (hclear : ∀ p, t.aim true folder = some p → t.IsClear p (Path.parts path))
    (h : t.ComesBy (Path.join folder path) q) : t.ComesBy folder q
      ∨ ∃ p front, t.aim true folder = some p ∧ front <+: Path.parts path ∧ front ≠ []
        ∧ q = p ++ front := by
  have hstart : t.start (Path.join folder path) = t.start folder := by
    obtain ⟨-, -, -, habsolute⟩ :=
      Path.exists_parts_join folder (Path.not_isAbsolute_of_proper hpath)
    rw [start, start, habsolute]
  rw [ComesBy, Path.steps_join folder hpath, hstart] at h
  rw [aim_eq_steps] at hclear ⊢
  exact h.append_cases (fun n hn => (List.mem_filter.mp hn).2) hpath hclear

end Terrain

/-! ## Walks -/

namespace Entry

variable {top other : Entry} {here : List String} {children others : List (String × Entry)}
variable {name target : String}

/-- What shows the face of a folder is one. -/
theorem exists_children (hface : other.face? here = top.face? here)
    (h : top.get? here = some (.folder children)) :
    ∃ others, other.get? here = some (.folder others) :=
  face?_eq_folder_iff.mp (hface.trans (face?_eq_folder_iff.mpr ⟨children, h⟩))

/-- What shows the face of a link is that link. -/
theorem lookup_eq_link (hface : (others.lookup name).map face = (children.lookup name).map face)
    (hlink : children.lookup name = some (.link target)) :
    others.lookup name = some (.link target) := by
  rw [hlink] at hface
  obtain ⟨entry, hentry, hsame⟩ := Option.map_eq_some_iff.mp hface
  cases entry <;> simp_all [face]

end Entry

namespace Workspace

variable {w v : Workspace} {follow : Bool} {fuel : Nat} {place names q : List String}
variable {path : String} {spot : Spot}

/-- A walk from a file ends there. -/
theorem place_of_walk_file {content : ByteArray} {follow : Bool}
    (h : w.walk follow fuel place names = .ok spot)
    (hfile : w.top.get? place = some (.file content)) : spot.place = place := by
  cases names with
  | nil =>
      rw [walk_nil hfile] at h
      obtain rfl := Except.ok.inj h
      rfl
  | cons name rest =>
      rw [walk_leaf hfile (by simp)] at h
      cases h

/-- What a walk comes by before its end is a folder or a link. -/
theorem face_of_trail (h : w.walk true fuel place names = .ok spot)
    {p : List String} (hp : w.terrain.Trail fuel place (names.filter Terrain.isStep) p) :
    p = spot.place ∨ w.top.face? p = some .folder ∨ ∃ target, w.top.face? p = some (.link target) := by
  have hfolder : ∀ {here : List String} {children : List (String × Entry)},
      w.top.get? here = some (.folder children) → w.top.face? here = some .folder :=
    fun hhere => face?_eq_folder_iff.mpr ⟨_, hhere⟩
  fun_induction Workspace.walk w true fuel place names with
  | case1 fuel place e hhere =>
      cases hp with
      | here => exact .inl (by rw [← Except.ok.inj h]; rfl)
  | case3 fuel place name rest children hhere hblank ih =>
      rw [Terrain.filter_isStep_of_blank hblank] at hp
      exact ih h hp
  | case4 fuel place rest children hhere hblank ih =>
      rw [Terrain.filter_isStep_of_step hblank] at hp
      cases hp with
      | here => exact .inr (.inl (hfolder hhere))
      | up hrest => exact ih h hrest
      | next hname => exact absurd rfl hname
      | down hname _ _ => exact absurd rfl hname
      | onward hname _ _ => exact absurd rfl hname
  | case6 fuel place name rest children hhere hblank hup hlong hnone hall =>
      have hend : spot.place = place ++ [name] := by
        rw [← Except.ok.inj h]
        rfl
      have hthere := links_child hhere name
      rw [hnone] at hthere
      have hrest : rest.filter Terrain.isStep = [] := List.filter_eq_nil_iff.mpr fun n hn => by
        simp [Terrain.isStep_eq_false_iff.mpr (.inl (by simpa using List.all_eq_true.mp hall n hn))]
      rw [Terrain.filter_isStep_of_step hblank, hrest] at hp
      cases hp with
      | here => exact .inr (.inl (hfolder hhere))
      | up _ => exact absurd rfl hup
      | next _ => exact .inl hend.symm
      | down _ _ hlast =>
          cases hlast with
          | here => exact .inl hend.symm
      | onward _ hother _ => cases hother.symm.trans hthere
  | case10 place name rest children hhere hblank hup hlong target hlink hlast fuel next ih =>
      have hthere := links_child hhere name
      rw [hlink] at hthere
      rw [Terrain.filter_isStep_of_step hblank] at hp
      cases hp with
      | here => exact .inr (.inl (hfolder hhere))
      | up _ => exact absurd rfl hup
      | next _ => exact .inr (.inr ⟨target, by rw [face?_child hhere, hlink]; rfl⟩)
      | down _ hnone _ => cases hnone.symm.trans hthere
      | onward _ hother hrest =>
          obtain rfl := Option.some.inj (hother.symm.trans hthere)
          refine ih h ?_
          rwa [List.filter_append]
  | case11 fuel place name rest children hhere hblank hup hlong e hnolink hlookup ih =>
      have hnone := links_child_eq_none hhere hlookup hnolink
      rw [Terrain.filter_isStep_of_step hblank] at hp
      have hchild : w.top.get? (place ++ [name]) = some e := by
        rw [get?_child hhere, hlookup]
      cases hp with
      | here => exact .inr (.inl (hfolder hhere))
      | up _ => exact absurd rfl hup
      | next _ =>
          cases e with
          | link target => exact absurd rfl (hnolink target)
          | folder kids => exact .inr (.inl (hfolder hchild))
          | file content => exact .inl (place_of_walk_file h hchild).symm
      | down _ _ hrest => exact ih h hrest
      | onward _ hother _ => cases hother.symm.trans hnone
  | _ => simp_all

/-- All that a walk comes by is there, but for a free name at its end. -/
theorem face?_of_trail (h : w.walk true fuel place names = .ok spot)
    {p : List String} (hp : w.terrain.Trail fuel place (names.filter Terrain.isStep) p)
    (hfree : ∀ front name asFolder, spot = .free front name asFolder → p ≠ front ++ [name]) :
    w.top.face? p ≠ none := by
  rcases face_of_trail h hp with rfl | hfolder | ⟨target, hlink⟩
  · have hholds := holds_of_walk h
    cases spot with
    | taken q entry =>
        have hthere : w.top.get? q = some entry := hholds
        simp [Spot.place, face?, hthere]
    | free front name asFolder => exact absurd rfl (hfree front name asFolder rfl)
  · simp [hfolder]
  · simp [hlink]

/-- **All that a path comes by is there** if it leads to something. -/
theorem face?_of_comesBy {entry : Entry} (h : w.resolve true path = .ok (.taken q entry))
    {p : List String} (hp : w.terrain.ComesBy path p) : w.top.face? p ≠ none :=
  face?_of_trail (walk_of_resolve h) hp (by simp)

/-- Two walks have failed alike, or they have come to the same free name or to the same place and
what shows the same face there. -/
inductive SameSpot : Except FileFault Spot → Except FileFault Spot → Prop
  | error (fault : FileFault) : SameSpot (.error fault) (.error fault)
  | free (place : List String) (name : String) (asFolder : Bool) :
      SameSpot (.ok (.free place name asFolder)) (.ok (.free place name asFolder))
  | taken (place : List String) {entry other : Entry} (h : other.face = entry.face) :
      SameSpot (.ok (.taken place entry)) (.ok (.taken place other))

/-- **A walk sees no more than its trail.** -/
theorem sameSpot_walk (h : ∀ p, w.terrain.Trail fuel place (names.filter Terrain.isStep) p →
      v.top.face? p = w.top.face? p) :
    SameSpot (w.walk follow fuel place names) (v.walk follow fuel place names) := by
  have hlookup : ∀ {here : List String} {children children' : List (String × Entry)} {n : String},
      v.top.face? (here ++ [n]) = w.top.face? (here ++ [n]) →
      w.top.get? here = some (.folder children) → v.top.get? here = some (.folder children') →
      (children'.lookup n).map face = (children.lookup n).map face := fun hface hhere hhere' =>
    (face?_child hhere' _).symm.trans (hface.trans (face?_child hhere _))
  fun_induction Workspace.walk w follow fuel place names with
  | case1 fuel place entry hhere =>
      have hface := h place .here
      rw [face?, face?, hhere] at hface
      obtain ⟨other, hother, hsame⟩ := Option.map_eq_some_iff.mp hface
      rw [walk_nil hother]
      exact .taken place hsame
  | case2 fuel place hhere =>
      have hface := h place .here
      rw [face?, face?, hhere] at hface
      rw [walk_nowhere (Option.map_eq_none_iff.mp hface)]
      exact .error _
  | case3 fuel place name rest children hhere hblank ih =>
      obtain ⟨children', hhere'⟩ := exists_children (h place .here) hhere
      rw [Terrain.filter_isStep_of_blank hblank] at h
      rw [walk_blank hhere' hblank]
      exact ih h
  | case4 fuel place rest children hhere hblank ih =>
      obtain ⟨children', hhere'⟩ := exists_children (h place .here) hhere
      rw [Terrain.filter_isStep_of_step hblank] at h
      rw [walk_up hhere']
      exact ih fun p hp => h p (.up hp)
  | case5 fuel place name rest children hhere hblank hup hlong =>
      obtain ⟨children', hhere'⟩ := exists_children (h place .here) hhere
      rw [walk_long hhere' hblank hup hlong]
      exact .error _
  | case6 fuel place name rest children hhere hblank hup hlong hnone hall =>
      obtain ⟨children', hhere'⟩ := exists_children (h place .here) hhere
      rw [Terrain.filter_isStep_of_step hblank] at h
      have hnext := hlookup (h _ (.next hup)) hhere hhere'
      rw [hnone, Option.map_none, Option.map_eq_none_iff] at hnext
      rw [walk_free hhere' hblank hup hlong hnext hall]
      exact .free _ _ _
  | case7 fuel place name rest children hhere hblank hup hlong hnone hall =>
      obtain ⟨children', hhere'⟩ := exists_children (h place .here) hhere
      rw [Terrain.filter_isStep_of_step hblank] at h
      have hnext := hlookup (h _ (.next hup)) hhere hhere'
      rw [hnone, Option.map_none, Option.map_eq_none_iff] at hnext
      rw [walk_missing hhere' hblank hup hlong hnext hall]
      exact .error _
  | case8 fuel place name rest children hhere hblank hup hlong target hlink hlast =>
      obtain ⟨children', hhere'⟩ := exists_children (h place .here) hhere
      rw [Terrain.filter_isStep_of_step hblank] at h
      have hlink' := lookup_eq_link (hlookup (h _ (.next hup)) hhere hhere') hlink
      rw [walk_lastLink hhere' hblank hup hlong hlink' hlast]
      exact .taken _ rfl
  | case9 place name rest children hhere hblank hup hlong target hlink hlast =>
      obtain ⟨children', hhere'⟩ := exists_children (h place .here) hhere
      rw [Terrain.filter_isStep_of_step hblank] at h
      have hlink' := lookup_eq_link (hlookup (h _ (.next hup)) hhere hhere') hlink
      rw [walk_linkless hhere' hblank hup hlong hlink' hlast]
      exact .error _
  | case10 place name rest children hhere hblank hup hlong target hlink hlast fuel next ih =>
      obtain ⟨children', hhere'⟩ := exists_children (h place .here) hhere
      have hthere := links_child hhere name
      rw [hlink] at hthere
      rw [Terrain.filter_isStep_of_step hblank] at h
      have hlink' := lookup_eq_link (hlookup (h _ (.next hup)) hhere hhere') hlink
      rw [walk_link hhere' hblank hup hlong hlink' hlast]
      refine ih fun p hp => h p (.onward hup hthere ?_)
      rwa [List.filter_append] at hp
  | case11 fuel place name rest children hhere hblank hup hlong e hnolink hentry ih =>
      obtain ⟨children', hhere'⟩ := exists_children (h place .here) hhere
      have hnone := links_child_eq_none hhere hentry hnolink
      rw [Terrain.filter_isStep_of_step hblank] at h
      have hnext := hlookup (h _ (.next hup)) hhere hhere'
      rw [hentry] at hnext
      obtain ⟨other, hother, hsame⟩ := Option.map_eq_some_iff.mp hnext
      have hnolink' : ∀ target, other ≠ .link target := by
        rintro target rfl
        cases e with
        | link inner => exact hnolink inner rfl
        | _ => cases hsame
      rw [walk_child hhere' hblank hup hlong hother hnolink']
      exact ih fun p hp => h p (.down hup hnone hp)
  | case12 fuel place name rest entry hnofolder hhere =>
      have hface := h place .here
      rw [face?, face?, hhere] at hface
      obtain ⟨other, hother, hsame⟩ := Option.map_eq_some_iff.mp hface
      have hleaf : ∀ children, other ≠ .folder children := by
        rintro children rfl
        cases entry with
        | folder inner => exact hnofolder inner rfl
        | _ => cases hsame
      rw [walk_leaf hother hleaf]
      exact .error _
  | case13 fuel place name rest hhere =>
      have hface := h place .here
      rw [face?, face?, hhere] at hface
      rw [walk_nowhere (Option.map_eq_none_iff.mp hface)]
      exact .error _

/-- **A path sees no more than what it comes by.** -/
theorem sameSpot_resolve (hhere : v.here = w.here)
    (h : ∀ p, w.terrain.ComesBy path p → v.top.face? p = w.top.face? p) (follow : Bool) :
    SameSpot (w.resolve follow path) (v.resolve follow path) := by
  rw [resolve, resolve]
  split
  · exact .error _
  · split
    · exact .error _
    · split
      · exact .error _
      · rw [start, start, hhere]
        exact sameSpot_walk h

/-- Where all that a path comes by has the same face, it leads to the same place. -/
theorem exists_resolve_of_comesBy {entry : Entry} (hhere : v.here = w.here)
    (hon : ∀ p, v.terrain.ComesBy path p → w.top.face? p = v.top.face? p)
    (h : v.resolve follow path = .ok (.taken q entry)) :
    ∃ before, w.resolve follow path = .ok (.taken q before) ∧ before.face = entry.face := by
  have hsame := sameSpot_resolve hhere.symm hon follow
  rw [h] at hsame
  generalize w.resolve follow path = result at hsame ⊢
  cases hsame with
  | taken _ hface => exact ⟨_, rfl, hface⟩

end Workspace

/-! ## Folders -/

namespace FileAction

variable {w w' : Workspace} {path : String} {p : List String}

/-- All that a path comes by is there once its folder has been made. -/
theorem face?_of_makeFolder (h : (makeFolder path).runOn w = (.ok (), w'))
    (hp : w.terrain.ComesBy path p) : w'.top.face? p ≠ none := by
  obtain ⟨-, hne⟩ | ⟨-, place, name, asFolder, hresolve, rfl⟩ := makeFolder_cases h
  · exact absurd rfl hne
  · obtain ⟨children, hfolder, hnone⟩ :=
      Workspace.holds_of_walk (Workspace.walk_of_resolve hresolve)
    by_cases hend : p = place ++ [name]
    · rw [hend, face?_put hfolder, if_pos (List.prefix_refl _)]
      simp [face?, get?]
    · have hthere : w.top.face? p ≠ none := by
        refine Workspace.face?_of_trail
          (Workspace.walk_of_resolve (Workspace.resolve_follow hresolve (by simp))) hp ?_
        intro front n asFolder' heq
        obtain ⟨rfl, rfl, -⟩ := Spot.free.inj heq
        exact hend
      have hmade := Workspace.alters_newFolder hfolder hnone
        (Workspace.properName_of_resolve hresolve)
      rwa [hmade.face_of_ne_none id hthere]

/-- **All that a path comes by is there** once its folder has been made with its parents. -/
theorem face?_of_comesBy_makeFolders (htidy : w.top.Tidy) (hpath : path ≠ "")
    (h : (makeFolders path).runOn w = (.ok (), w')) (hp : w.terrain.ComesBy path p) :
    w'.top.face? p ≠ none := by
  have hdoes : Does w.terrain (fun _ => False) (fun _ => True) (makeFolders path) fun _ => True :=
    does_makeFolders fun _ _ => .inr trivial
  have hterrain := (hdoes w _ w' rfl htidy h).1.terrain
  obtain ⟨parents, hparents⟩ := Path.exists_ancestors path
  rw [makeFolders, hparents] at h
  rcases makeFirst_cases htidy hpath h with hfolder | ⟨q, -, -, -, u, hterrain', hlast⟩
  · obtain ⟨place, children, hresolve⟩ := Workspace.isFolder_eq_true_iff.mp hfolder
    exact Workspace.face?_of_comesBy hresolve (hterrain ▸ hp)
  · exact face?_of_makeFolder hlast (hterrain' ▸ hp)

end FileAction

end CanvasFlutter
