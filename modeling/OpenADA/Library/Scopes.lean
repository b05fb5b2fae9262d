import Mathlib.Data.List.Nodup

/-! Named items in nested scopes, as a text that opens and closes scopes declares them. -/
namespace Scopes

variable {α β γ : Type}

/-- What a line of a text does: it opens a scope or closes the innermost one, starts or ends a part
that declares nothing, ends the text, declares an item, or does none of these. -/
inductive Event (α : Type) where
  | opens
  | closes
  | mutes
  | unmutes
  | stops
  | item (a : α)
  | other
  deriving DecidableEq

def Event.map (f : α → β) : Event α → Event β
  | .opens => .opens
  | .closes => .closes
  | .mutes => .mutes
  | .unmutes => .unmutes
  | .stops => .stops
  | .item a => .item (f a)
  | .other => .other

/-- The items in their order, each with the number of the scope it is declared in; `next` is the
number of the next scope and `stack` holds those that are open. -/
def readItems : ℕ → List ℕ → Bool → List (Event α) → List (ℕ × α)
  | _, _, _, [] => []
  | next, stack, muted, .opens :: rest =>
    if muted then readItems next stack muted rest
    else readItems (next + 1) (next :: stack) muted rest
  | next, stack, muted, .closes :: rest =>
    readItems next (if muted then stack else stack.tail) muted rest
  | next, stack, _, .mutes :: rest => readItems next stack true rest
  | next, stack, _, .unmutes :: rest => readItems next stack false rest
  | next, stack, muted, .stops :: rest => if muted then readItems next stack muted rest else []
  | next, stack, muted, .item a :: rest =>
    if muted then readItems next stack muted rest
    else (stack.head?.getD 0, a) :: readItems next stack muted rest
  | next, stack, muted, .other :: rest => readItems next stack muted rest

def items (events : List (Event α)) : List (ℕ × α) := readItems 1 [] false events

def Distinct (key : α → β) (events : List (Event α)) : Prop :=
  ((items events).map fun item => (item.1, key item.2)).Nodup

theorem readItems_map (f : α → β) (next : ℕ) (stack : List ℕ) (muted : Bool)
    (events : List (Event α)) :
    readItems next stack muted (events.map (Event.map f)) =
      (readItems next stack muted events).map fun item => (item.1, f item.2) := by
  induction events generalizing next stack muted with
  | nil => rfl
  | cons event rest ih =>
    cases event <;> cases muted <;> simp [Event.map, readItems, ih]

theorem items_map (f : α → β) (events : List (Event α)) :
    items (events.map (Event.map f)) = (items events).map fun item => (item.1, f item.2) :=
  readItems_map f 1 [] false events

theorem distinct_map (f : α → β) (key : β → γ) (events : List (Event α)) :
    Distinct key (events.map (Event.map f)) ↔ Distinct (fun a => key (f a)) events := by
  unfold Distinct
  rw [items_map, List.map_map]
  rfl

/-- Items that are distinct by one key are distinct by another just where the other tells them
apart within each scope. -/
theorem distinct_iff_of_distinct {key : α → β} {events : List (Event α)}
    (h : Distinct key events) (other : α → γ) :
    Distinct other events ↔ ∀ a ∈ items events, ∀ b ∈ items events, a.1 = b.1 →
      other a.2 = other b.2 → key a.2 = key b.2 := by
  have hitems : (items events).Nodup := List.Nodup.of_map _ h
  have hkeys := (List.nodup_map_iff_inj_on hitems).mp h
  unfold Distinct
  rw [List.nodup_map_iff_inj_on hitems]
  constructor
  · intro hother a ha b hb hscope hequal
    rw [hother a ha b hb (Prod.ext hscope hequal)]
  · intro hkey a ha b hb hequal
    obtain ⟨hscope, hvalue⟩ := Prod.mk.inj hequal
    exact hkeys a ha b hb (Prod.ext hscope (hkey a ha b hb hscope hvalue))

/-! The items outside of all scopes. -/

/-- The events that are neither muted nor behind the end; the others do nothing. -/
def heard : Bool → List (Event α) → List (Event α)
  | _, [] => []
  | _, .mutes :: rest => .other :: heard true rest
  | _, .unmutes :: rest => .other :: heard false rest
  | muted, .stops :: rest =>
    if muted then .other :: heard muted rest else .other :: rest.map fun _ => .other
  | muted, event :: rest => (if muted then .other else event) :: heard muted rest

/-- The items that stand outside of all scopes, where `depth` scopes are open. -/
def outer : ℕ → List (Event α) → List α
  | _, [] => []
  | depth, .opens :: rest => outer (depth + 1) rest
  | depth, .closes :: rest => outer (depth - 1) rest
  | depth, .item a :: rest => if depth = 0 then a :: outer depth rest else outer depth rest
  | depth, _ :: rest => outer depth rest

def surface : ℕ → List (Event α) → List (Event α)
  | _, [] => []
  | depth, .opens :: rest => .opens :: surface (depth + 1) rest
  | depth, .closes :: rest => .closes :: surface (depth - 1) rest
  | depth, .item a :: rest => (if depth = 0 then .item a else .other) :: surface depth rest
  | depth, event :: rest => event :: surface depth rest

def topItems (events : List (Event α)) : List α :=
  ((items events).filter fun item => item.1 = 0).map Prod.snd

theorem outer_silent (depth : ℕ) (events : List (Event α)) :
    outer depth (events.map fun _ => (.other : Event β)) = [] := by
  induction events with
  | nil => rfl
  | cons event rest ih => exact ih

theorem outer_surface (depth : ℕ) (events : List (Event α)) :
    outer depth (surface depth events) = outer depth events := by
  induction events generalizing depth with
  | nil => rfl
  | cons event rest ih =>
    cases event with
    | item a =>
      simp only [surface]
      split_ifs with h <;> simp [outer, h, ih]
    | opens => simp [surface, outer, ih]
    | closes => simp [surface, outer, ih]
    | mutes => simp [surface, outer, ih]
    | unmutes => simp [surface, outer, ih]
    | stops => simp [surface, outer, ih]
    | other => simp [surface, outer, ih]

/-- Of the heard events, the items outside of all scopes are those with the number zero, which no
open scope has. -/
theorem topItems_readItems {next : ℕ} {stack : List ℕ} (hnext : 0 < next) (hstack : 0 ∉ stack)
    (muted : Bool) (events : List (Event α)) :
    ((readItems next stack muted events).filter fun item => item.1 = 0).map Prod.snd =
      outer stack.length (heard muted events) := by
  induction events generalizing next stack muted with
  | nil => rfl
  | cons event rest ih =>
    cases event with
    | opens =>
      cases muted with
      | true => exact ih hnext hstack true
      | false =>
        have hopen : 0 ∉ next :: stack := by
          intro h
          rcases List.mem_cons.mp h with h | h
          · omega
          · exact hstack h
        exact ih (Nat.succ_pos next) hopen false
    | closes =>
      cases muted with
      | true => exact ih hnext hstack true
      | false =>
        have htail := ih hnext (fun h => hstack (List.mem_of_mem_tail h)) false
        rw [List.length_tail] at htail
        exact htail
    | mutes => exact ih hnext hstack true
    | unmutes => exact ih hnext hstack false
    | stops =>
      cases muted with
      | true => exact ih hnext hstack true
      | false =>
        show [] = outer stack.length (heard false (.stops :: rest))
        rw [heard, if_neg Bool.false_ne_true]
        exact (outer_silent stack.length rest).symm
    | item a =>
      cases muted with
      | true => exact ih hnext hstack true
      | false =>
        rw [readItems, if_neg Bool.false_ne_true, heard, if_neg Bool.false_ne_true, outer]
        · cases stack with
          | nil => simpa using ih hnext hstack false
          | cons scope stack =>
            have hscope : scope ≠ 0 := fun h => hstack (h ▸ List.mem_cons_self ..)
            simpa [hscope] using ih hnext hstack false
        all_goals simp
    | other => cases muted <;> exact ih hnext hstack _

theorem topItems_eq (events : List (Event α)) : topItems events = outer 0 (heard false events) :=
  topItems_readItems Nat.one_pos List.not_mem_nil false events

/-- Texts with the same openings, closings and outermost items, as far as they are heard, have the
same items outside of all scopes. -/
theorem outer_eq_of_surface {events heardEvents : List (Event α)}
    (h : surface 0 events = surface 0 heardEvents) : outer 0 events = outer 0 heardEvents := by
  rw [← outer_surface, h, outer_surface]

theorem readItems_filterMap (f : β → Option (Event α)) (next : ℕ) (stack : List ℕ) (muted : Bool)
    (lines : List β) : readItems next stack muted (lines.filterMap f) =
      readItems next stack muted (lines.map fun line => (f line).getD .other) := by
  induction lines generalizing next stack muted with
  | nil => rfl
  | cons line rest ih =>
    cases hline : f line with
    | none =>
      rw [List.filterMap_cons_none hline, List.map_cons, hline]
      exact ih next stack muted
    | some event =>
      rw [List.filterMap_cons_some hline, List.map_cons, hline, Option.getD_some]
      cases event <;> cases muted <;> simp only [readItems, ih]

theorem topItems_filterMap (f : β → Option (Event α)) (lines : List β) :
    topItems (lines.filterMap f) = topItems (lines.map fun line => (f line).getD .other) := by
  unfold topItems items
  rw [readItems_filterMap]

end Scopes
