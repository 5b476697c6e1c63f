import DiagramEditor.Browser.Adapter

/-! Calls of a connection library over a page: what they do to the page they do through its
functions, and what they do to the registry they do only when they succeed. -/
namespace DiagramEditor.Browser

variable {π ν : Type}

structure Host.Keeps (h : Host π ν) (P : π → Prop) : Prop where
  invoke : ∀ {method arguments page}, P page → P (h.invoke method arguments page).2
  setStyle : ∀ {n property value page}, P page → P (h.setStyle n property value page).2
  parse : ∀ {text page}, P page → P (h.parse text page).2

namespace Adapter

section Page
variable {h : Host π ν} {P : π → Prop} (hP : h.Keeps P) {a a' : Adapter π}
include hP

theorem invoke_keeps {method : String} {arguments : List Value} {answer : Except Fault Value}
    (ha : P a.page) (he : invoke h method arguments a = (answer, a')) : P a'.page := by
  have hpage : P (h.invoke method arguments a.page).2 := hP.invoke ha
  obtain rfl : (invoke h method arguments a).2 = a' := congrArg Prod.snd he
  simp only [invoke]
  split
  · next heq => rwa [heq] at hpage
  · next heq => rwa [heq] at hpage

theorem setStyles_keeps {n : ν} {styles : List (String × String)} {answer : Except Fault Unit}
    (ha : P a.page) (he : setStyles h n styles a = (answer, a')) : P a'.page := by
  induction styles generalizing a with
  | nil => exact (Prod.mk.inj he).2 ▸ ha
  | cons style rest ih =>
    have hpage : P (h.setStyle n style.1 style.2 a.page).2 := hP.setStyle ha
    simp only [setStyles] at he
    split at he
    · next heq =>
      rw [heq] at hpage
      exact (Prod.mk.inj he).2 ▸ hpage
    · next heq =>
      rw [heq] at hpage
      exact ih hpage he

theorem library_keeps (c : Wiring.Call) (ha : P a.page) : P (library h c a).2.page := by
  cases c with
  | setContainer e =>
    simp only [library, setContainer]
    split
    · exact ha
    · split
      · next he => exact invoke_keeps hP ha he
      · next he =>
        have hpage := invoke_keeps hP ha he
        exact hpage
  | makeDraggable item box =>
    simp only [library, makeDraggable]
    split
    · exact ha
    · split
      · next he => exact setStyles_keeps hP ha he
      · next he =>
        have hpage := setStyles_keeps hP ha he
        exact hpage
  | moveItem item p =>
    simp only [library, moveItem]
    split
    · exact ha
    · split
      · next he => exact setStyles_keeps hP ha he
      · next he =>
        have hstyled := setStyles_keeps hP ha he
        split
        · split
          · next he' => exact invoke_keeps hP hstyled he'
          · next he' => exact invoke_keeps hP hstyled he'
        · exact hstyled
  | addEndpoint e =>
    have hpage : P (h.parse (Wiring.endpointOptions e).text a.page).2 := hP.parse ha
    simp only [library, addEndpoint]
    split
    · next heq => rwa [heq] at hpage
    · next options page heq =>
      rw [heq] at hpage
      have hparsed : P (Adapter.mk page a.registry).page := hpage
      split
      · next he => exact invoke_keeps hP hparsed he
      · next he =>
        have hpage := invoke_keeps hP hparsed he
        exact hpage
  | connect id source target =>
    simp only [library, connect]
    split
    · exact ha
    · split
      · exact ha
      · split
        · next he => exact invoke_keeps hP ha he
        · next he =>
          have hcalled := invoke_keeps hP ha he
          split
          · exact hcalled
          · exact hcalled
  | removeElement item =>
    simp only [library, removeElement]
    split
    · next he => exact invoke_keeps hP ha he
    · next he =>
      have hpage := invoke_keeps hP ha he
      exact hpage

end Page

end Adapter

/-- What is asked of the page of `h` shows through `f` as what is asked of the page of `k`. -/
structure Host.Shows {ρ : Type} (h : Host π ν) (k : Host ρ ν) (f : π → ρ) : Prop where
  invoke : ∀ method arguments page, k.invoke method arguments (f page) =
    ((h.invoke method arguments page).1, f (h.invoke method arguments page).2)
  element : ∀ id page, k.elementById? id (f page) = h.elementById? id page
  style : k.hasStyle = h.hasStyle
  setStyle : ∀ n property value page, k.setStyle n property value (f page) =
    ((h.setStyle n property value page).1, f (h.setStyle n property value page).2)
  parse : ∀ text page, k.parse text (f page) = ((h.parse text page).1, f (h.parse text page).2)

namespace Adapter

section Shows
variable {ρ : Type} {h : Host π ν} {k : Host ρ ν} {f : π → ρ} (hs : h.Shows k f) (a : Adapter π)
include hs

omit hs in
def seen (f : π → ρ) (a : Adapter π) : Adapter ρ := ⟨f a.page, a.registry⟩

omit hs in
theorem seen_registry : (a.seen f).registry = a.registry := rfl

theorem invoke_seen (method : String) (arguments : List Value) :
    invoke k method arguments (a.seen f) =
      ((invoke h method arguments a).1, (invoke h method arguments a).2.seen f) := by
  simp only [invoke, seen, hs.invoke]
  rcases h.invoke method arguments a.page with ⟨_ | _, page⟩
  · rfl
  · rfl

theorem element_seen (item : ItemId) : element k item (a.seen f) = element h item a := by
  simp only [element, seen, hs.element, hs.style]

theorem setStyles_seen (n : ν) (styles : List (String × String)) :
    setStyles k n styles (a.seen f) =
      ((setStyles h n styles a).1, (setStyles h n styles a).2.seen f) := by
  induction styles generalizing a with
  | nil => rfl
  | cons style rest ih =>
    simp only [setStyles, seen, hs.setStyle]
    rcases h.setStyle n style.1 style.2 a.page with ⟨_ | _, page⟩
    · rfl
    · exact ih { a with page := page }

theorem library_seen (c : Wiring.Call) :
    library k c (a.seen f) = ((library h c a).1, (library h c a).2.seen f) := by
  cases c with
  | setContainer e =>
    simp only [library, setContainer]
    split
    · rfl
    · next id _ =>
      rw [invoke_seen hs]
      rcases invoke h "setContainer" [.string id] a with ⟨_ | _, a'⟩
      · rfl
      · rfl
  | makeDraggable item box =>
    simp only [library, makeDraggable, element_seen hs]
    split
    · rfl
    · next n _ =>
      rw [setStyles_seen hs]
      rcases setStyles h n [("position", "absolute")] a with ⟨_ | _, a'⟩
      · rfl
      · rfl
  | moveItem item p =>
    simp only [library, moveItem, element_seen hs]
    split
    · rfl
    · next n _ =>
      rw [setStyles_seen hs]
      rcases setStyles h n _ a with ⟨_ | _, a'⟩
      · rfl
      · dsimp only
        rw [seen_registry]
        split
        · rw [invoke_seen hs]
          rcases invoke h "revalidate" [.string item.text] a' with ⟨_ | _, a''⟩
          · rfl
          · rfl
        · rfl
  | addEndpoint e =>
    simp only [library, addEndpoint, seen, hs.parse]
    rcases h.parse (Wiring.endpointOptions e).text a.page with ⟨_ | options, page⟩
    · rfl
    · have hi : invoke k "addEndpoint" [.string e.item.text, options] ⟨f page, a.registry⟩ = _ :=
        invoke_seen hs ⟨page, a.registry⟩ _ _
      dsimp only
      rw [hi]
      rcases invoke h "addEndpoint" [.string e.item.text, options] ⟨page, a.registry⟩ with
        ⟨_ | _, a'⟩
      · rfl
      · rfl
  | connect id source target =>
    simp only [library, connect, seen_registry]
    rcases a.registry.handle source.id with _ | first
    · rfl
    · rcases a.registry.handle target.id with _ | second
      · rfl
      · dsimp only
        rw [invoke_seen hs]
        rcases invoke h "connect" [.object [("source", first), ("target", second)]] a with
          ⟨_ | v, a'⟩
        · rfl
        · dsimp only
          split
          · rfl
          · rfl
  | removeElement item =>
    simp only [library, removeElement]
    rw [invoke_seen hs]
    rcases invoke h "remove" [.string item.text] a with ⟨_ | _, a'⟩
    · rfl
    · rfl

end Shows

end Adapter

structure Invocation where
  method : String
  arguments : List Value
  outcome : Except Failure Value

structure Observed (π : Type) where
  page : π
  invocations : List Invocation

def Host.observed (h : Host π ν) : Host (Observed π) ν where
  invoke method arguments o :=
    let (outcome, page) := h.invoke method arguments o.page
    (outcome, ⟨page, o.invocations ++ [⟨method, arguments, outcome⟩]⟩)
  elementById? id o := h.elementById? id o.page
  hasStyle := h.hasStyle
  setStyle n property value o :=
    let (outcome, page) := h.setStyle n property value o.page
    (outcome, { o with page := page })
  parse text o :=
    let (outcome, page) := h.parse text o.page
    (outcome, { o with page := page })

theorem Host.observed_shows (h : Host π ν) : h.observed.Shows h Observed.page where
  invoke := fun _ _ _ => rfl
  element := fun _ _ => rfl
  style := rfl
  setStyle := fun _ _ _ _ => rfl
  parse := fun _ _ => rfl

end DiagramEditor.Browser
