import LayeredAssets.Definition

namespace LayeredAssets

/-- A data set to be searched, and the definition that owns it. -/
structure Priority where
  name : String
  /-- Where it lies, once that is known. -/
  path : Option String
  source : Definition
  deriving DecidableEq, Repr

def Priority.isMod (p : Priority) : Bool := p.source.isMod

/-- What a definition needs, directly or not, in the order in which it is searched. -/
structure Dependencies where
  priorities : List Priority
  /-- Names that no definition owns, sorted and each once. -/
  missing : List String
  deriving DecidableEq, Repr

namespace Dependencies

/-- The root owns its own data set even if it is not among all definitions. -/
def owner? (root : Definition) (all : List Definition) (name : String) : Option Definition :=
  if name = root.dataSet then some root else Definition.find? all name

def holds (found : List Priority) (name : String) : Bool := found.any (fun p => p.name == name)

/-- The names that have an owner and have not been found yet. -/
def pending (root : Definition) (all : List Definition) (found : List Priority) : List String :=
  (root.dataSet :: all.map Definition.dataSet).filter (fun name => !holds found name)

theorem filter_length_lt {p q : String → Bool} {l : List String} {x : String}
    (h : ∀ y, q y = true → p y = true) (hx : x ∈ l) (hp : p x = true) (hq : q x = false) :
    (l.filter q).length < (l.filter p).length := by
  induction l with
  | nil => simp at hx
  | cons y l ih =>
    have hle : (l.filter q).length ≤ (l.filter p).length := by
      simpa only [List.countP_eq_length_filter] using List.countP_mono_left (fun y _ => h y)
    rcases List.mem_cons.mp hx with rfl | hx
    · simp only [List.filter_cons, hp, hq, Bool.false_eq_true, ↓reduceIte, List.length_cons]
      omega
    · have := ih hx
      simp only [List.filter_cons]
      split
      · next hy => simp only [h y hy, ↓reduceIte, List.length_cons]; omega
      · split
        · simp only [List.length_cons]; omega
        · exact this

theorem owner_mem {root owner : Definition} {all : List Definition} {name : String}
    (h : owner? root all name = some owner) :
    name ∈ root.dataSet :: all.map Definition.dataSet := by
  unfold owner? at h
  split at h
  · next hn => exact hn ▸ List.mem_cons_self
  · have hd := List.find?_some h
    have hm := List.mem_of_find?_eq_some h
    have : owner.dataSet = name := by simpa using hd
    exact List.mem_cons_of_mem _ (this ▸ List.mem_map_of_mem hm)

theorem pending_decreases {root owner : Definition} {all : List Definition}
    {found : List Priority} {name : String} (hf : ¬ holds found name = true)
    (ho : owner? root all name = some owner) :
    (pending root all (⟨name, none, owner⟩ :: found)).length <
      (pending root all found).length := by
  refine filter_length_lt ?_ (owner_mem ho) (by simpa using hf) (by simp [holds])
  intro y hy
  simp only [holds, List.any_cons, Bool.not_or, Bool.and_eq_true] at hy
  exact hy.2

/-- What is required comes right behind what requires it, before anything that was waiting. A name
that has been found already is not waited for. -/
def walk (root : Definition) (all : List Definition) (found : List Priority)
    (missing : List String) : (waiting : List String) → List Priority × List String
  | [] => (found.reverse, missing)
  | name :: waiting =>
    if hf : holds found name then walk root all found missing waiting
    else
      match ho : owner? root all name with
      | none => walk root all found (name :: missing) waiting
      | some owner =>
        have := pending_decreases hf ho
        let found' := ⟨name, none, owner⟩ :: found
        let required := owner.required.filter (fun name => !holds found' name)
        walk root all found' missing (required ++ waiting)
termination_by waiting => ((pending root all found).length, waiting.length)
decreasing_by
  · exact Prod.Lex.right _ (Nat.lt_succ_self _)
  · exact Prod.Lex.right _ (Nat.lt_succ_self _)
  · exact Prod.Lex.left _ _ this

def of (root : Definition) (all : List Definition) : Dependencies :=
  let (priorities, missing) := walk root all [] [] [root.dataSet]
  ⟨priorities, (Text.sorted missing).eraseDups⟩

def names (deps : Dependencies) : List String := deps.priorities.map Priority.name

/-- The data sets of the games themselves and those of mods, each in their order. -/
def split (priorities : List Priority) : List Priority × List Priority :=
  (priorities.filter (fun p => !p.isMod), priorities.filter Priority.isMod)

def setPath (deps : Dependencies) (index : Nat) (path : Option String) : Dependencies :=
  { deps with priorities := deps.priorities.modify index (fun p => { p with path := path }) }

end Dependencies
end LayeredAssets
