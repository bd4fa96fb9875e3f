import CanvasFlutter.PageSource.Seed
import CanvasFlutter.Proofs.Dart.Value
import CanvasFlutter.Proofs.Widget.Argument

namespace CanvasFlutter

/-!
# `CanvasFlutter.Proofs.Widget.Dropdown` — which choice a dropdown shows

The framework draws a button of choices only if what it shows is null or the value of one of its items
and of no other. A dropdown shows what its entry holds where that is among the options. That rules out
values that no item has, and leaves those that two items have.

## Contents
- **Buttons.** `Choices` is what a button shows and offers in a state; `Choices.IsLegal` is what the
  framework asks of it.
- **Dropdowns.** What the button of a dropdown comes to (`argument?_choiceDropdown`,
  `invoke_changeHandler`); `isLegal_iff`.
- **Runs.** `Reachable` states; `HoldsChoice` holds in all of them (`Reachable.holdsChoice`), and an
  option can be chosen in any that is drawn (`Reachable.chosen`); `IsDropdown.isDrawn_iff_nodup`.
- **Nodes.** `guard_choiceDropdown`.
-/

open Dart

/-! ## Buttons -/

/-- The value that an item or a widget was given by name. -/
def Dart.Value.argument? (name : String) : Value → Option Value
  | .object _ args => args.lookup name
  | _ => none

namespace Widget

/-- The value of a widget's argument in a state. -/
def argumentIn? (widget : Code) (name : String) (state : State) : Option Value :=
  (widget.argument? name).bind (eval state · [])

/-- What a button shows, and the values of its items. -/
structure Choices where
  shown : Value
  items : List Value

/-- What a button shows and offers in a state. -/
def choices? (button : Code) (state : State) : Option Choices :=
  match argumentIn? button "value" state, argumentIn? button "items" state with
  | some shown, some (.list items) => (items.mapM (Value.argument? "value")).map (Choices.mk shown)
  | _, _ => none

/-- What the framework asks of a button: without items anything goes, and else what is shown is null
or the value of just one item. -/
def Choices.IsLegal (c : Choices) : Prop :=
  c.items = [] ∨ c.shown.isNull = true ∨ c.items.countP c.shown.same = 1

/-- Whether a button is drawn in a state; it throws otherwise. -/
def IsDrawn (button : Code) (state : State) : Prop :=
  ∃ c, choices? button state = some c ∧ c.IsLegal

/-! ## Dropdowns -/

variable {options : List String} {state next : State} {key : String}

/-- An item for an option. -/
def menuItem (option : String) : Value :=
  .object "DropdownMenuItem<String>" [("value", .text option),
    ("child", .object "Text" [("", .text option), ("overflow", .constant "TextOverflow.ellipsis")])]

/-- What is shown where an entry holds a value. -/
def shownOf (options : List String) (held : Value) : Value :=
  if (options.map Value.text).any held.same then held else .null

/-- The handler that is called with what was chosen. -/
def changeHandler (key : String) : Value :=
  .function "(String? newValue)" [.word "if (newValue == null) return",
    setState (.assign (.entry dropdownState key) (.word "newValue"))]

theorem mapM_some {α β γ : Type} (f : β → Option γ) (g : α → β) (h : α → γ) (items : List α)
    (hf : ∀ item, f (g item) = some (h item)) : (items.map g).mapM f = some (items.map h) := by
  induction items with
  | nil => rfl
  | cons item items ih =>
      rw [List.map_cons, List.mapM_cons, hf, ih]
      rfl

/-- An entry is shown where the guard finds it among the options. -/
theorem eval_guarded (state : State) (options : List String) (key : String) :
    eval state (.choice (.method (.strings options) "contains" [.entry dropdownState key])
      (.entry dropdownState key) (.word "null")) [] = some (shownOf options (state dropdownState key)) := by
  have hcontains : eval state (.method (.strings options) "contains" [.entry dropdownState key]) []
      = some (.bool ((options.map Value.text).any (state dropdownState key).same)) := rfl
  rw [eval, hcontains, shownOf]
  cases (options.map Value.text).any (state dropdownState key).same with
  | true => rfl
  | false => rfl

/-- What stands in a dropdown's button. -/
theorem argument?_choiceDropdown (a : Attributes) :
    ∃ args, (choiceDropdown a).within? ["child", "child"]
        = some (.call "DropdownButton<String>" args)
      ∧ (∀ state, choices? (.call "DropdownButton<String>" args) state
        = some ⟨shownOf (a.node.list "options") (state dropdownState a.node.stateKey),
          (a.node.list "options").map .text⟩)
      ∧ ∀ state, argumentIn? (.call "DropdownButton<String>" args) "onChanged" state
        = some (changeHandler a.node.stateKey) := by
  unfold choiceDropdown
  extract_lets current options item items onChanged hint dropdown
  have hdropdown : ∃ args, dropdown = .call "DropdownButton<String>" args
      ∧ Code.valueOf? "value" args
        = some (.choice (.method options "contains" [current]) current (.word "null"))
      ∧ Code.valueOf? "items" args = some items
      ∧ Code.valueOf? "onChanged" args = some onChanged := by
    refine ⟨_, rfl, ?_, ?_, ?_⟩
    all_goals simp [Code.valueOf?_append, Code.valueOf?, Code.valueOf?_namedIfAny_of_ne, wordArg]
  obtain ⟨args, heq, hvalue, hitems, hchanged⟩ := hdropdown
  have hitem : ∀ (state : State) (option : String), eval state item
      [(parameterName "(String value)", .text option)] = some (menuItem option) := fun _ _ => rfl
  refine ⟨args, ?_, ?_, ?_⟩
  · simp [Code.within?, Code.argument?, Code.valueOf?_append, Code.valueOf?,
      Code.valueOf?_namedIfAny_of_ne, sizeArgs, numberArg, heq]
  · intro state
    have hshown : argumentIn? (.call "DropdownButton<String>" args) "value" state
        = some (shownOf (a.node.list "options") (state dropdownState a.node.stateKey)) := by
      rw [argumentIn?, Code.argument?, hvalue]
      exact eval_guarded state _ _
    have hlist : argumentIn? (.call "DropdownButton<String>" args) "items" state
        = some (.list ((a.node.list "options").map menuItem)) := by
      rw [argumentIn?, Code.argument?, hitems]
      show (((a.node.list "options").map Value.text).mapM fun value =>
        eval state item [(parameterName "(String value)", value)]).map Value.list = _
      rw [mapM_some _ Value.text menuItem _ (hitem state)]
      rfl
    simp only [choices?, hshown, hlist]
    rw [mapM_some _ menuItem Value.text _ fun _ => rfl]
    rfl
  · intro state
    rw [argumentIn?, Code.argument?, hchanged]
    rfl

theorem invoke_changeHandler (state : State) (key option : String) :
    (changeHandler key).invoke (.text option) state
      = some (state.set dropdownState key (.text option)) := rfl

theorem any_same_iff {options : List String} {held : Value} :
    (options.map Value.text).any held.same = true ↔ ∃ option ∈ options, held = .text option := by
  rw [List.any_map, List.any_eq_true]
  apply exists_congr
  intro option
  apply and_congr_right
  intro _
  cases held <;> simp [Value.same]

theorem countP_same (options : List String) (option : String) :
    (options.map Value.text).countP (Value.text option).same = options.count option := by
  rw [List.countP_map, List.count]
  apply List.countP_congr
  intro other _
  show (option == other) = true ↔ (other == option) = true
  rw [beq_iff_eq, beq_iff_eq]
  exact eq_comm

/-- **What the guard leaves out.** A dropdown is drawn unless its entry holds an option that is there
more than once. -/
theorem isLegal_iff (options : List String) (held : Value) :
    (Choices.mk (shownOf options held) (options.map .text)).IsLegal
      ↔ ∀ option ∈ options, held = .text option → options.count option = 1 := by
  rw [Choices.IsLegal, shownOf]
  by_cases hany : (options.map Value.text).any held.same = true
  · obtain ⟨option, hoption, rfl⟩ := any_same_iff.mp hany
    have hne : options ≠ [] := List.ne_nil_of_mem hoption
    rw [if_pos hany]
    simp only [countP_same, List.map_eq_nil_iff, hne, Value.isNull, Bool.false_eq_true, false_or]
    constructor
    · intro hcount other hother heq
      rw [← Value.text.inj heq]
      exact hcount
    · intro hcount
      exact hcount option hoption rfl
  · rw [if_neg hany]
    refine iff_of_true (.inr (.inl rfl)) ?_
    intro option hoption heq
    exact absurd (any_same_iff.mpr ⟨option, hoption, heq⟩) hany

/-! ## Runs -/

/-- The states that a page comes to while its button is drawn: the seed's statement is run, then items
are chosen, and what else happens leaves the entry alone. -/
inductive Reachable (button seed : Code) (key : String) : State → Prop
  | start {before state : State} (h : run [seed] [] before = some state) : Reachable button seed key state
  | choose {state next : State} {c : Choices} {value handler : Value} (h : Reachable button seed key state)
      (hdrawn : choices? button state = some c) (hlegal : c.IsLegal) (hitem : value ∈ c.items)
      (hhandler : argumentIn? button "onChanged" state = some handler)
      (hnext : handler.invoke value state = some next) : Reachable button seed key next
  | elsewhere {state next : State} (h : Reachable button seed key state)
      (hsame : next dropdownState key = state dropdownState key) : Reachable button seed key next

/-- What an entry may hold: a first choice or an option. -/
def HoldsChoice (key first : String) (options : List String) (state : State) : Prop :=
  ∃ s, state dropdownState key = .text s ∧ (s = first ∨ s ∈ options)

/-- A button of a dropdown, as far as it is drawn and can be used. -/
structure IsDropdown (button : Code) (key : String) (options : List String) : Prop where
  choices : ∀ state, choices? button state
    = some ⟨shownOf options (state dropdownState key), options.map .text⟩
  handler : ∀ state, argumentIn? button "onChanged" state = some (changeHandler key)

variable {button : Code} {first : String}

theorem run_seed (key first : String) (state : State) :
    run [(Seed.chosen key first).code] [] state = some (state.set dropdownState key (.text first)) := rfl

theorem set_self (state : State) (key : String) (value : Value) :
    state.set dropdownState key value dropdownState key = value := by
  simp [State.set]

theorem IsDropdown.isDrawn_iff (h : IsDropdown button key options) (state : State) :
    IsDrawn button state
      ↔ ∀ option ∈ options, state dropdownState key = .text option → options.count option = 1 := by
  rw [← isLegal_iff, IsDrawn, h.choices]
  simp

/-- Choosing one of the items sets the entry to that option. -/
theorem IsDropdown.of_choose (h : IsDropdown button key options) {c : Choices} {value handler : Value}
    (hdrawn : choices? button state = some c) (hitem : value ∈ c.items)
    (hhandler : argumentIn? button "onChanged" state = some handler)
    (hnext : handler.invoke value state = some next) :
    ∃ option ∈ options, next = state.set dropdownState key (.text option) := by
  rw [h.choices] at hdrawn
  obtain rfl := Option.some.inj hdrawn
  obtain ⟨option, hoption, rfl⟩ := List.mem_map.mp hitem
  rw [h.handler] at hhandler
  obtain rfl := Option.some.inj hhandler
  rw [invoke_changeHandler] at hnext
  exact ⟨option, hoption, (Option.some.inj hnext).symm⟩

/-- **Whatever happens, the entry holds the first choice or an option.** -/
theorem Reachable.holdsChoice (h : IsDropdown button key options)
    (hreach : Reachable button (Seed.chosen key first).code key state) :
    HoldsChoice key first options state := by
  induction hreach with
  | start hrun =>
      rw [run_seed] at hrun
      obtain rfl := Option.some.inj hrun
      exact ⟨first, set_self _ _ _, .inl rfl⟩
  | choose _ hdrawn _ hitem hhandler hnext _ =>
      obtain ⟨option, hoption, rfl⟩ := h.of_choose hdrawn hitem hhandler hnext
      exact ⟨option, set_self _ _ _, .inr hoption⟩
  | elsewhere _ hsame ih =>
      obtain ⟨s, hs, hchoice⟩ := ih
      exact ⟨s, hsame.trans hs, hchoice⟩

/-- An option can be chosen while the button is drawn, and then it is what the entry holds. -/
theorem Reachable.chosen (h : IsDropdown button key options)
    (hreach : Reachable button (Seed.chosen key first).code key state) (hdrawn : IsDrawn button state)
    {option : String} (hoption : option ∈ options) :
    Reachable button (Seed.chosen key first).code key (state.set dropdownState key (.text option)) := by
  obtain ⟨c, hc, hlegal⟩ := hdrawn
  have heq := hc
  rw [h.choices] at heq
  obtain rfl := Option.some.inj heq
  exact hreach.choose hc hlegal (List.mem_map_of_mem hoption) (h.handler state)
    (invoke_changeHandler state key option)

theorem IsDropdown.isDrawn_iff_nodup (h : IsDropdown button key options) (first : String) :
    (∀ state, Reachable button (Seed.chosen key first).code key state → IsDrawn button state)
      ↔ options.Nodup := by
  constructor
  · intro hall
    rw [List.nodup_iff_count]
    intro option
    by_cases hoption : option ∈ options
    · -- after the seed this option can be chosen, unless the button is not even drawn then
      have hstart : Reachable button (Seed.chosen key first).code key
          (State.set (fun _ _ => .null) dropdownState key (.text first)) := .start (run_seed key first _)
      have hnext := hstart.chosen h (hall _ hstart) hoption
      have hone := (h.isDrawn_iff _).mp (hall _ hnext) option hoption (set_self _ _ _)
      omega
    · rw [List.count_eq_zero_of_not_mem hoption]
      exact Nat.zero_le 1
  · intro hnodup state _
    rw [h.isDrawn_iff]
    intro option hoption _
    rw [hnodup.count, if_pos hoption]

/-! ## Nodes -/

/-- **The guard of a dropdown.** Its button shows what its entry holds where that is an option, and null
otherwise, and offers the options as they are. It is drawn in a state unless the entry holds an option
that is there more than once; so it never throws just if the options are all different. -/
theorem guard_choiceDropdown {node : Node} (h : node.kind = .choiceDropdown) :
    ∃ args seed, (lower node).bind (Code.within? ["child", "child", "child"])
        = some (.call "DropdownButton<String>" args)
      ∧ Seed.ofNode? node = some seed
      ∧ (∀ state, choices? (.call "DropdownButton<String>" args) state
        = some ⟨shownOf (node.list "options") (state dropdownState node.stateKey),
          (node.list "options").map .text⟩)
      ∧ (∀ state, IsDrawn (.call "DropdownButton<String>" args) state ↔ ∀ option ∈ node.list "options",
        state dropdownState node.stateKey = .text option → (node.list "options").count option = 1)
      ∧ (∀ state, Reachable (.call "DropdownButton<String>" args) seed.code node.stateKey state →
        HoldsChoice node.stateKey (initialChoice node) (node.list "options") state)
      ∧ ((∀ state, Reachable (.call "DropdownButton<String>" args) seed.code node.stateKey state →
        IsDrawn (.call "DropdownButton<String>" args) state) ↔ (node.list "options").Nodup) := by
  obtain ⟨args, hwithin, hchoices, hhandler⟩ := argument?_choiceDropdown (Attributes.of node)
  have hlower : lower node
      = some (place (Attributes.of node) (choiceDropdown (Attributes.of node))) := by
    obtain ⟨kind, id, attrs, children⟩ := node
    obtain rfl : kind = .choiceDropdown := h
    rfl
  have hbutton : IsDropdown (.call "DropdownButton<String>" args) node.stateKey (node.list "options") :=
    ⟨hchoices, hhandler⟩
  refine ⟨args, .chosen node.stateKey (initialChoice node), ?_, ?_, hchoices, hbutton.isDrawn_iff,
    fun state hreach => hreach.holdsChoice hbutton, hbutton.isDrawn_iff_nodup _⟩
  · rw [hlower, Option.bind_some, Code.within?, argument?_place, Option.bind_some, hwithin]
  · rw [Seed.ofNode?, h]

/-- A dropdown that offers one text twice. -/
def twinDropdown : Node := ⟨.choiceDropdown, some "d", [("options", .array [.string "A", .string "A"])], []⟩

theorem guard_choiceDropdown_twin :
    ∃ args seed, (lower twinDropdown).bind (Code.within? ["child", "child", "child"])
        = some (.call "DropdownButton<String>" args)
      ∧ Seed.ofNode? twinDropdown = some seed
      ∧ ∃ state, Reachable (.call "DropdownButton<String>" args) seed.code "d" state
        ∧ ¬ IsDrawn (.call "DropdownButton<String>" args) state := by
  have hkind : twinDropdown.kind = .choiceDropdown := rfl
  have hkey : twinDropdown.stateKey = "d" := rfl
  have htwice : ¬ (twinDropdown.list "options").Nodup := by decide
  obtain ⟨args, seed, hbutton, hseed, -, -, -, hdrawn⟩ := guard_choiceDropdown hkind
  rw [hkey] at hdrawn
  obtain ⟨state, hthrows⟩ := Classical.not_forall.mp (mt hdrawn.mp htwice)
  exact ⟨args, seed, hbutton, hseed, state, Classical.not_imp.mp hthrows⟩

end Widget

end CanvasFlutter
