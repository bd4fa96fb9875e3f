import CanvasFlutter.Proofs.Export.Confined
import CanvasFlutter.Proofs.Workspace.Tour

namespace CanvasFlutter

/-!
# `CanvasFlutter.Proofs.Export.Walk` — a walk is a tour

A walk lists each folder by its path when it gets there, so what it visits depends on what its
visits do. If they leave the tree that is walked alone, the walk visits the items of its tour, one
after another.

## Contents
- **Paths.** `Terrain.aim_joinAll`; `isClear_of_get?`: the way to what is there goes through no link.
- **Sequences.** `runOn_mapM_cons`, `runOn_mapM_append`.
- **Walks.** `Stands`: a path leads to this tree; `visitFolder_add`, `mapM_tour_of_visitTree`.
- **Success.** `GoesOn.exists_visitTree`.
-/

open Entry FileAction

/-! ## Paths -/

variable {t : Terrain} {w w' : Workspace} {root path : String} {place names : List String}

/-- Down from a folder a path of names points where the names say. -/
theorem Terrain.aim_joinAll (hnames : ∀ n ∈ names, ProperName n) (hroot : t.aim true root = some place)
    (hclear : t.IsClear place names) :
    t.aim true (Path.joinAll root names) = some (place ++ names) := by
  induction names generalizing root place with
  | nil => simpa [Path.joinAll] using hroot
  | cons name rest ih =>
      obtain ⟨hnone, hrest⟩ := isClear_cons hclear
      have hname := hnames name (by simp)
      have hparts := Path.parts_proper hname
      have hfirst : t.aim true (Path.join root name) = some (place ++ [name]) := by
        rw [aim_join (by simpa [hparts] using hname), hroot, hparts, Option.map_some]
        intro q hq front hfront hne
        obtain rfl := Option.some.inj (hroot.symm.trans hq)
        rw [hparts] at hfront
        obtain ⟨n, more, rfl⟩ := List.exists_cons_of_ne_nil hne
        obtain ⟨rfl, rfl⟩ : n = name ∧ more = [] := by simpa using hfront
        exact hnone
      have hall := ih (fun n hn => hnames n (by simp [hn])) hfirst hrest
      rwa [List.append_assoc] at hall

/-- The way down to what is there and no link goes through folders. -/
theorem isClear_of_get? {entry : Entry} (h : w.top.get? (place ++ names) = some entry)
    (hkind : entry.kind ≠ .link) : w.terrain.IsClear place names := by
  rintro front ⟨more, rfl⟩ -
  show w.link? (place ++ front) = none
  cases hlink : w.link? (place ++ front) with
  | none => rfl
  | some target =>
      rw [Workspace.link?_eq_some_iff] at hlink
      rw [← List.append_assoc] at h
      cases more with
      | nil =>
          rw [List.append_nil] at h
          have hentry := face?_eq_link_iff.mp hlink
          rw [h] at hentry
          obtain rfl := Option.some.inj hentry
          simp [kind] at hkind
      | cons n more =>
          have hbelow : w.top.face? (place ++ front ++ n :: more) ≠ none := by
            rw [face?, h]
            simp
          have hfolder := face?_of_below hbelow
          rw [hlink] at hfolder
          cases hfolder

/-- The names on the way to what is there are names. -/
theorem proper_of_get? {top entry : Entry} (htidy : top.Tidy) (h : top.get? names = some entry) :
    ∀ n ∈ names, ProperName n := by
  induction names generalizing top with
  | nil => simp
  | cons name rest ih =>
      cases top with
      | folder children =>
          obtain ⟨child, hlookup, hrest⟩ := Option.bind_eq_some_iff.mp h
          obtain ⟨hlisted, hinner⟩ := tidy_folder_iff.mp htidy
          exact List.forall_mem_cons.mpr ⟨hlisted.proper _ (mem_of_lookup hlookup),
            ih (hinner name child hlookup) hrest⟩
      | _ => simp [get?] at h

/-! ## Sequences -/

namespace FileAction

variable {ε α β : Type} {f : β → FileAction ε α}

theorem runOn_mapM_nil (w : Workspace) : ([].mapM f).runOn w = (.ok [], w) := rfl

theorem runOn_mapM_cons {item : β} {items : List β} {a : α} {as : List α} {between : Workspace}
    (hfirst : (f item).runOn w = (.ok a, between))
    (hrest : (items.mapM f).runOn between = (.ok as, w')) :
    ((item :: items).mapM f).runOn w = (.ok (a :: as), w') := by
  rw [List.mapM_cons]
  exact runOn_bind_of_ok hfirst (runOn_bind_of_ok hrest rfl)

theorem runOn_mapM_append {items more : List β} {as bs : List α} {between : Workspace}
    (hfirst : (items.mapM f).runOn w = (.ok as, between))
    (hrest : (more.mapM f).runOn between = (.ok bs, w')) :
    ((items ++ more).mapM f).runOn w = (.ok (as ++ bs), w') := by
  rw [List.mapM_append]
  exact runOn_bind_of_ok hfirst (runOn_bind_of_ok hrest rfl)

/-- A sequence that succeeds did its first item and then the rest. -/
theorem runOn_mapM_cons_eq_ok {item : β} {items : List β} {as : List α}
    (h : ((item :: items).mapM f).runOn w = (.ok as, w')) :
    ∃ a rest between, as = a :: rest ∧ (f item).runOn w = (.ok a, between)
      ∧ (items.mapM f).runOn between = (.ok rest, w') := by
  rw [List.mapM_cons] at h
  obtain ⟨a, between, hfirst, h⟩ := runOn_bind_eq_ok h
  obtain ⟨rest, after, hrest, h⟩ := runOn_bind_eq_ok h
  obtain ⟨hresults, rfl⟩ := Prod.mk.inj h
  exact ⟨a, rest, between, (Except.ok.inj hresults).symm, hfirst, hrest⟩

/-- Where each action gives what another one gives, so does the sequence. -/
theorem runOn_mapM_congr {g : β → FileAction ε α} {items : List β} {as : List α}
    (hstep : ∀ item ∈ items, ∀ w a w', (f item).runOn w = (.ok a, w') →
      (g item).runOn w = (.ok a, w'))
    (h : (items.mapM f).runOn w = (.ok as, w')) : (items.mapM g).runOn w = (.ok as, w') := by
  induction items generalizing w as with
  | nil => exact h
  | cons item rest ih =>
      obtain ⟨a, others, between, rfl, hfirst, hothers⟩ := runOn_mapM_cons_eq_ok h
      exact runOn_mapM_cons (hstep item (by simp) w a between hfirst)
        (ih (fun other hother => hstep other (by simp [hother])) hothers)

end FileAction

/-! ## Walks -/

namespace Package

variable {α : Type} {visit : Visit α} {children kids : List (String × Entry)}

/-- A path leads to a folder with these children at a place. -/
structure Stands (t : Terrain) (root : String) (place : List String)
    (children : List (String × Entry)) (w : Workspace) : Prop where
  terrain : w.terrain = t
  tidy : w.top.Tidy
  aim : t.aim true root = some place
  entry : w.top.get? place = some (.folder children)

namespace Stands

theorem tidy_children (h : Stands t root place children w) : Tidy (.folder children) :=
  h.tidy.entry h.entry

/-- What is walked stands while all in it keeps its face. -/
theorem of_face (h : Stands t root place children w) (hterrain : w'.terrain = t)
    (htidy : w'.top.Tidy)
    (hface : ∀ q, w'.top.face? (place ++ q) = w.top.face? (place ++ q)) :
    Stands t root place children w' :=
  ⟨hterrain, htidy, h.aim, (get?_eq_of_face? h.tidy htidy hface).trans h.entry⟩

/-- What is below the folder is where its names say, and so is where its path points. -/
theorem aim_below (h : Stands t root place children w) {entry : Entry}
    (hentry : (Entry.folder children).get? names = some entry) (hkind : entry.kind ≠ .link) :
    t.aim true (Path.joinAll root names) = some (place ++ names)
      ∧ w.top.get? (place ++ names) = some entry := by
  have hbelow : w.top.get? (place ++ names) = some entry := by
    rw [get?_append, h.entry, Option.bind_some, hentry]
  have hclear := isClear_of_get? hbelow hkind
  rw [h.terrain] at hclear
  exact ⟨Terrain.aim_joinAll (proper_of_get? h.tidy_children hentry) h.aim hclear, hbelow⟩

/-- A listing of a folder below gives its children. -/
theorem listing_below (h : Stands t root place children w)
    (hkids : (Entry.folder children).get? names = some (.folder kids))
    {listing : List (String × EntryKind)}
    (hrun : (listFolder (Path.joinAll root names)).runOn w = (.ok listing, w')) :
    listing = kids.map fun child => (child.1, child.2.kind) := by
  obtain ⟨rfl, found, others, hresolve, rfl⟩ := listFolder_eq_ok hrun
  obtain ⟨haim, hbelow⟩ := h.aim_below hkids (by simp [kind])
  have hplace := Workspace.aim_of_resolve hresolve
  rw [h.terrain, haim] at hplace
  obtain rfl := Option.some.inj hplace
  have hothers : w'.top.get? (place ++ names) = some (.folder others) :=
    Workspace.holds_of_walk (Workspace.walk_of_resolve hresolve)
  rw [hbelow] at hothers
  obtain rfl := Entry.folder.inj (Option.some.inj hothers)
  rfl

/-- What is walked can be listed if its path leads to something. -/
theorem exists_listing (h : Stands t root place children w) (hexists : w.exists? root = true) :
    ∃ listing, (listFolder root).runOn w = (.ok listing, w) := by
  obtain ⟨q, entry, hresolve⟩ := Workspace.exists?_eq_true_iff.mp hexists
  have hq := Workspace.aim_of_resolve hresolve
  rw [h.terrain, h.aim] at hq
  obtain rfl : place = q := Option.some.inj hq
  have hentry : w.top.get? place = some entry :=
    Workspace.holds_of_walk (Workspace.walk_of_resolve hresolve)
  rw [h.entry] at hentry
  obtain rfl := Option.some.inj hentry
  exact ⟨_, by rw [listFolder, runOn_bind, runOn_resolve, hresolve]; rfl⟩

end Stands

/-- The visit of an item of a tour that begins at a path. -/
def visitItem (visit : Visit α) (root : String) (item : List String × EntryKind) : ExportAction α :=
  visit (Path.joinAll root item.1) item.1 item.2

/-- The items of a tour that goes on from names. -/
def onward (names : List String) (items : List (List String × EntryKind)) :
    List (List String × EntryKind) :=
  items.map fun item => (names ++ item.1, item.2)

theorem onward_tourAll_cons (names : List String) (name : String) (entry : Entry)
    (rest : List (String × Entry)) : onward names (tourAll ((name, entry) :: rest))
      = onward (names ++ [name]) entry.tour ++ onward names (tourAll rest) := by
  unfold onward
  rw [tourAll, List.map_append, List.map_map]
  congr 1
  refine List.map_congr_left fun item _ => ?_
  simp

variable {inv : Workspace → Prop}

/-- Visits keep an invariant, and while it holds the folder that is walked stands. -/
structure KeepsTour (t : Terrain) (root : String) (place : List String)
    (children : List (String × Entry)) (inv : Workspace → Prop) (visit : Visit α) : Prop where
  stands : ∀ w, inv w → Stands t root place children w
  visit : ∀ item ∈ tourAll children, ∀ w a w', inv w →
    (visitItem visit root item).runOn w = (.ok a, w') → inv w'

theorem KeepsTour.below (hkeeps : KeepsTour t root place children inv visit) (hw : inv w)
    {entry : Entry} {rest : List String} {kind : EntryKind}
    (hentry : (Entry.folder children).get? names = some entry) (hne : names ≠ [])
    (hitem : (rest, kind) ∈ entry.tour) {a : α}
    (hrun : (visitItem visit root (names ++ rest, kind)).runOn w = (.ok a, w')) : inv w' := by
  refine hkeeps.visit _ ?_ _ _ _ hw hrun
  have htidy := (hkeeps.stands w hw).tidy_children
  obtain ⟨found, hfound, hkind⟩ := (mem_tour_iff (htidy.entry hentry)).mp hitem
  refine (mem_tourAll_iff htidy).mpr ⟨by simp [hne], found, ?_, hkind⟩
  rw [get?_append, hentry, Option.bind_some, hfound]

/-- More fuel makes no difference to a walk that succeeds. -/
theorem visitFolder_add {fuel : Nat} {path : String} {listing : List (String × EntryKind)}
    {results : List α} (h : (visitFolder visit fuel path names listing).runOn w = (.ok results, w'))
    (more : Nat) :
    (visitFolder visit (fuel + more) path names listing).runOn w = (.ok results, w') := by
  induction fuel generalizing path names listing w w' results with
  | zero => exact absurd h runOn_throw_ne_ok
  | succ fuel ih =>
      rw [visitFolder_succ] at h
      rw [Nat.succ_add, visitFolder_succ]
      obtain ⟨parts, last, hparts, hend⟩ := runOn_bind_eq_ok h
      refine runOn_bind_of_ok (runOn_mapM_congr (fun item _ w part w' hchild => ?_) hparts) hend
      obtain ⟨name, kind⟩ := item
      cases kind with
      | link => exact hchild
      | file => exact hchild
      | folder =>
          obtain ⟨inside, before, hinside, hrest⟩ := runOn_bind_eq_ok hchild
          obtain ⟨a, between, hvisit, hrest⟩ := runOn_bind_eq_ok hrest
          refine runOn_bind_of_ok hinside (runOn_bind_of_ok hvisit ?_)
          cases inside with
          | error fault => exact absurd hrest runOn_throw_ne_ok
          | ok inside =>
              obtain ⟨others, after, hothers, hrest⟩ := runOn_bind_eq_ok hrest
              exact runOn_bind_of_ok (ih hothers) hrest

/-- Whether walks with this fuel are tours. -/
def Tours (root : String) (children : List (String × Entry)) (inv : Workspace → Prop)
    (visit : Visit α) (fuel : Nat) : Prop :=
  ∀ names kids w results w', (Entry.folder children).get? names = some (.folder kids) → inv w →
    (visitFolder visit fuel (Path.joinAll root names) names
      (kids.map fun child => (child.1, child.2.kind))).runOn w = (.ok results, w') →
    ((onward names (tourAll kids)).mapM (visitItem visit root)).runOn w = (.ok results, w')
      ∧ inv w'

theorem joinAll_concat (root : String) (names : List String) (name : String) :
    Path.joinAll root (names ++ [name]) = Path.join (Path.joinAll root names) name := by
  simp [Path.joinAll]

/-- A child is visited, and then all in it. -/
theorem mapM_tour_of_visitChild (hkeeps : KeepsTour t root place children inv visit) {fuel : Nat}
    (hfuel : Tours root children inv visit fuel) {name : String} {entry : Entry}
    (hentry : (Entry.folder children).get? (names ++ [name]) = some entry)
    (hw : inv w) {results : List α}
    (hrun : (visitChild visit fuel (Path.joinAll root names) names (name, entry.kind)).runOn w
      = (.ok results, w')) :
    ((onward (names ++ [name]) entry.tour).mapM (visitItem visit root)).runOn w
        = (.ok results, w')
      ∧ inv w' := by
  have hne : names ++ [name] ≠ [] := by simp
  have hvisit : ∀ kind, visit (Path.join (Path.joinAll root names) name) (names ++ [name]) kind
      = visitItem visit root (names ++ [name] ++ [], kind) := by
    intro kind
    rw [visitItem, List.append_nil, joinAll_concat]
  cases entry with
  | link target =>
      obtain ⟨rfl, rfl⟩ := runOn_pure_eq_ok hrun
      exact ⟨runOn_mapM_nil w', hw⟩
  | file content =>
      obtain ⟨a, between, hfirst, hrest⟩ := runOn_bind_eq_ok hrun
      obtain ⟨rfl, rfl⟩ := runOn_pure_eq_ok hrest
      rw [hvisit] at hfirst
      exact ⟨runOn_mapM_cons hfirst (runOn_mapM_nil _),
        hkeeps.below hw hentry hne (by simp [tour]) hfirst⟩
  | folder kids =>
      obtain ⟨inside, before, hlisting, hrun⟩ := runOn_attempt_bind_eq_ok hrun
      obtain ⟨a, between, hfirst, hrun⟩ := runOn_bind_eq_ok hrun
      have hsame : before = w := by
        have hreads := reads_listFolder (Path.join (Path.joinAll root names) name) w
        rwa [hlisting] at hreads
      rw [hsame, hvisit] at hfirst
      have hbetween := hkeeps.below hw hentry hne (by simp [tour]) hfirst
      cases inside with
      | error fault => exact absurd hrun runOn_throw_ne_ok
      | ok listing =>
          obtain ⟨rest, last, hrest, hrun⟩ := runOn_bind_eq_ok hrun
          obtain ⟨rfl, rfl⟩ := runOn_pure_eq_ok hrun
          dsimp only at hlisting hrest
          rw [← joinAll_concat] at hlisting hrest
          rw [(hkeeps.stands _ hw).listing_below hentry hlisting] at hrest
          obtain ⟨htour, hlast⟩ := hfuel _ kids _ _ _ hentry hbetween hrest
          exact ⟨runOn_mapM_cons hfirst htour, hlast⟩

/-- The children of a folder are visited one after another, each by a tour of its own. -/
theorem mapM_tour_of_mapM_visitChild (hkeeps : KeepsTour t root place children inv visit) {fuel : Nat}
    (hfuel : Tours root children inv visit fuel)
    (hkids : ∀ child ∈ kids, (Entry.folder children).get? (names ++ [child.1]) = some child.2)
    (hw : inv w) {parts : List (List α)}
    (hrun : ((kids.map fun child => (child.1, child.2.kind)).mapM
      (visitChild visit fuel (Path.joinAll root names) names)).runOn w = (.ok parts, w')) :
    ((onward names (tourAll kids)).mapM (visitItem visit root)).runOn w = (.ok parts.flatten, w')
      ∧ inv w' := by
  induction kids generalizing w parts with
  | nil =>
      obtain ⟨rfl, rfl⟩ := runOn_pure_eq_ok hrun
      exact ⟨runOn_mapM_nil w', hw⟩
  | cons child rest ih =>
      obtain ⟨name, entry⟩ := child
      obtain ⟨first, others, between, rfl, hfirst, hothers⟩ := runOn_mapM_cons_eq_ok hrun
      obtain ⟨hentry, hrest⟩ := List.forall_mem_cons.mp hkids
      obtain ⟨htour, hbetween⟩ := mapM_tour_of_visitChild hkeeps hfuel hentry hw hfirst
      obtain ⟨hlast, hw'⟩ := ih hrest hbetween hothers
      rw [onward_tourAll_cons]
      exact ⟨runOn_mapM_append htour hlast, hw'⟩

/-- **A walk is a tour**, if its visits leave alone what is walked. -/
theorem tours (hkeeps : KeepsTour t root place children inv visit) (fuel : Nat) :
    Tours root children inv visit fuel := by
  induction fuel with
  | zero =>
      intro names kids w results w' _ _ hrun
      exact absurd hrun runOn_throw_ne_ok
  | succ fuel ih =>
      intro names kids w results w' hkids hw hrun
      rw [visitFolder_succ] at hrun
      obtain ⟨parts, last, hparts, hend⟩ := runOn_bind_eq_ok hrun
      obtain ⟨rfl, rfl⟩ := runOn_pure_eq_ok hend
      refine mapM_tour_of_mapM_visitChild hkeeps ih (fun child hchild => ?_) hw hparts
      have hlisted := (tidy_folder_iff.mp ((hkeeps.stands _ hw).tidy_children.entry hkids)).1
      rw [get?_child hkids, hlisted.lookup_of_mem hchild]

/-- A walk of a folder visits the items of its tour. -/
theorem mapM_tour_of_visitTree (hkeeps : KeepsTour t root place children inv visit)
    (hw : inv w) {results : List α}
    (hrun : (visitTree visit root).runOn w = (.ok results, w')) :
    ((tourAll children).mapM (visitItem visit root)).runOn w = (.ok results, w')
      ∧ inv w' := by
  obtain ⟨inside, between, hlisting, hrun⟩ := runOn_attempt_bind_eq_ok hrun
  have hsame : between = w := by
    have hreads := reads_listFolder root w
    rwa [hlisting] at hreads
  subst hsame
  cases inside with
  | ok listing =>
      have hself : (Entry.folder children).get? [] = some (.folder children) := rfl
      have hall := (hkeeps.stands _ hw).listing_below hself hlisting
      subst hall
      have htour := tours hkeeps maxPathBytes [] children between results w' rfl hw hrun
      rwa [show onward [] (tourAll children) = tourAll children by simp [onward]] at htour
  | error fault =>
      rw [runOn_bind, runOn_look] at hrun
      cases hexists : between.exists? root with
      | false =>
          simp only [hexists] at hrun
          exact absurd hrun runOn_throw_ne_ok
      | true =>
          obtain ⟨listing, hok⟩ := (hkeeps.stands _ hw).exists_listing hexists
          rw [hlisting] at hok
          cases congrArg Prod.fst hok

/-- Visits succeed one after another: `reached` holds of what has been visited and the workspace
then, each next visit succeeds, and all that is walked can be listed. -/
structure GoesOn (root : String) (children : List (String × Entry)) (visit : Visit α)
    (reached : List (List String × EntryKind) → Workspace → Prop) : Prop where
  lists : ∀ done w names kids, reached done w →
    (Entry.folder children).get? names = some (.folder kids) →
    (listFolder (Path.joinAll root names)).runOn w
      = (.ok (kids.map fun child => (child.1, child.2.kind)), w)
  visits : ∀ done item rest w, tourAll children = done ++ item :: rest → reached done w →
    ∃ a w', (visitItem visit root item).runOn w = (.ok a, w') ∧ reached (done ++ [item]) w'

variable {reached : List (List String × EntryKind) → Workspace → Prop}
variable {done rest : List (List String × EntryKind)}

/-- Whether walks with this fuel succeed where they come by in the tour. -/
def Walks (root : String) (children : List (String × Entry)) (visit : Visit α)
    (reached : List (List String × EntryKind) → Workspace → Prop) (fuel : Nat) : Prop :=
  ∀ names kids done rest w, (Entry.folder children).get? names = some (.folder kids) →
    names.length + fuel = maxPathBytes →
    tourAll children = done ++ onward names (tourAll kids) ++ rest → reached done w →
    ∃ results w', (visitFolder visit fuel (Path.joinAll root names) names
        (kids.map fun child => (child.1, child.2.kind))).runOn w = (.ok results, w')
      ∧ reached (done ++ onward names (tourAll kids)) w'

theorem GoesOn.exists_visitChild (hgoes : GoesOn root children visit reached) {fuel : Nat}
    (hwalks : Walks root children visit reached fuel) {name : String} {entry : Entry}
    (hentry : (Entry.folder children).get? (names ++ [name]) = some entry)
    (hfuel : names.length + (fuel + 1) = maxPathBytes)
    (htour : tourAll children = done ++ onward (names ++ [name]) entry.tour ++ rest)
    (hw : reached done w) :
    ∃ results w', (visitChild visit fuel (Path.joinAll root names) names (name, entry.kind)).runOn w
        = (.ok results, w')
      ∧ reached (done ++ onward (names ++ [name]) entry.tour) w' := by
  have hvisit : ∀ kind, visitItem visit root (names ++ [name] ++ [], kind)
      = visit (Path.join (Path.joinAll root names) name) (names ++ [name]) kind := by
    intro kind
    rw [visitItem, List.append_nil, joinAll_concat]
  cases entry with
  | link target => exact ⟨_, w, rfl, by simpa [tour, onward] using hw⟩
  | file content =>
      obtain ⟨a, w', hfirst, hw'⟩ := hgoes.visits done (names ++ [name] ++ [], .file) rest w
        (by simpa [tour, onward] using htour) hw
      rw [hvisit] at hfirst
      exact ⟨[a], w', runOn_bind_of_ok hfirst rfl, by simpa [tour, onward] using hw'⟩
  | folder kids =>
      have honward : onward (names ++ [name]) (Entry.folder kids).tour
          = (names ++ [name] ++ [], .folder) :: onward (names ++ [name]) (tourAll kids) := by
        rw [tour]
        rfl
      rw [honward] at htour ⊢
      obtain ⟨a, between, hfirst, hbetween⟩ := hgoes.visits done (names ++ [name] ++ [], .folder)
        (onward (names ++ [name]) (tourAll kids) ++ rest) w (by simpa using htour) hw
      obtain ⟨results, w', hrest, hw'⟩ := hwalks (names ++ [name]) kids _ rest between hentry
        (by simp; omega) (by simpa using htour) hbetween
      have hlisting := hgoes.lists done w _ kids hw hentry
      rw [hvisit] at hfirst
      rw [joinAll_concat] at hlisting hrest
      have hattempt : (attempt (listFolder (Path.join (Path.joinAll root names) name))
          : ExportAction _).runOn w
          = (.ok (.ok (kids.map fun child => (child.1, child.2.kind))), w) := by
        rw [runOn_attempt, hlisting]
      exact ⟨a :: results, w', runOn_bind_of_ok hattempt (runOn_bind_of_ok hfirst
        (runOn_bind_of_ok hrest rfl)), by simpa using hw'⟩

theorem GoesOn.exists_mapM_visitChild (hgoes : GoesOn root children visit reached) {fuel : Nat}
    (hwalks : Walks root children visit reached fuel)
    (hkids : ∀ child ∈ kids, (Entry.folder children).get? (names ++ [child.1]) = some child.2)
    (hfuel : names.length + (fuel + 1) = maxPathBytes)
    (htour : tourAll children = done ++ onward names (tourAll kids) ++ rest) (hw : reached done w) :
    ∃ parts w', ((kids.map fun child => (child.1, child.2.kind)).mapM
        (visitChild visit fuel (Path.joinAll root names) names)).runOn w = (.ok parts, w')
      ∧ reached (done ++ onward names (tourAll kids)) w' := by
  induction kids generalizing w done with
  | nil => exact ⟨[], w, rfl, by simpa [tourAll, onward] using hw⟩
  | cons child others ih =>
      obtain ⟨name, entry⟩ := child
      obtain ⟨hentry, hothers⟩ := List.forall_mem_cons.mp hkids
      rw [onward_tourAll_cons] at htour ⊢
      rw [List.append_assoc, List.append_assoc] at htour
      obtain ⟨first, between, hfirst, hbetween⟩ :=
        hgoes.exists_visitChild hwalks hentry hfuel (by simpa using htour) hw
      obtain ⟨parts, w', hparts, hw'⟩ := ih hothers (by simpa using htour) hbetween
      exact ⟨first :: parts, w', runOn_mapM_cons hfirst hparts, by simpa using hw'⟩

/-- **A walk succeeds if each of its visits does**, while all that is walked can be listed and is
not too deep. -/
theorem GoesOn.exists_visitTree (hgoes : GoesOn root children visit reached)
    (htidy : Tidy (.folder children))
    (hdepth : ∀ names kids, (Entry.folder children).get? names = some (.folder kids) →
      names.length < maxPathBytes)
    (hw : reached [] w) :
    ∃ results w', (visitTree visit root).runOn w = (.ok results, w')
      ∧ reached (tourAll children) w' := by
  have hwalks : ∀ fuel, Walks root children visit reached fuel := by
    intro fuel
    induction fuel with
    | zero =>
        intro names kids done rest w hkids hlength
        have hshallow := hdepth names kids hkids
        omega
    | succ fuel ih =>
        intro names kids done rest w hkids hlength htour hw
        have hlisted := (tidy_folder_iff.mp (htidy.entry hkids)).1
        obtain ⟨parts, w', hparts, hw'⟩ := hgoes.exists_mapM_visitChild ih (fun child hchild => by
          rw [get?_child hkids, hlisted.lookup_of_mem hchild]) hlength htour hw
        exact ⟨_, w', runOn_bind_of_ok hparts rfl, hw'⟩
  have honward : onward [] (tourAll children) = tourAll children := by simp [onward]
  have hlisting := hgoes.lists [] w [] children hw rfl
  have hattempt : (attempt (listFolder root) : ExportAction _).runOn w
      = (.ok (.ok (children.map fun child => (child.1, child.2.kind))), w) := by
    rw [runOn_attempt]
    exact congrArg (fun r => (Except.ok r.1, r.2)) hlisting
  obtain ⟨results, w', hall, hw'⟩ := hwalks maxPathBytes [] children [] [] w rfl (by simp)
    (by simpa using honward.symm) hw
  exact ⟨results, w', runOn_bind_of_ok hattempt hall, by simpa [honward] using hw'⟩

/-- A walk with less fuel that succeeds is the walk of the tree. -/
theorem visitTree_of_visitFolder {path : String} {listing : List (String × EntryKind)}
    {fuel : Nat} {results : List α} (hfuel : fuel ≤ maxPathBytes)
    (hlist : ((listFolder path).runOn w).1 = .ok listing)
    (h : (visitFolder visit fuel path [] listing).runOn w = (.ok results, w')) :
    (visitTree visit path).runOn w = (.ok results, w') := by
  have hlisting : (listFolder path).runOn w = (.ok listing, w) :=
    Prod.ext hlist (reads_listFolder path w)
  have hattempt : (attempt (listFolder path) : ExportAction _).runOn w = (.ok (.ok listing), w) := by
    rw [runOn_attempt, hlisting]
  have hall := visitFolder_add h (maxPathBytes - fuel)
  rw [Nat.add_sub_cancel' hfuel] at hall
  exact runOn_bind_of_ok hattempt hall

end Package

end CanvasFlutter
