import LayeredAssets.Proofs.Disc.Names
import Mathlib.Data.List.Pairwise

namespace LayeredAssets.Disc

/-- Files and folders, as they are to be found on a disc. -/
inductive Tree
  | file (bytes : Bytes)
  | folder (entries : List (String × Tree))

namespace Tree

def isFolder : Tree → Bool
  | file _ => false
  | folder _ => true

/-- What lies under a path, which is given by the names on the way. -/
inductive At : Tree → List String → Tree → Prop
  | here {tree} : At tree [] tree
  | within {entries name child names node} (h : (name, child) ∈ entries)
    (hc : At child names node) : At (.folder entries) (name :: names) node

/-- Names are plain and differ by more than their case; and at most so many folders lie one in the
other, the outermost among them. -/
inductive Plain : Nat → Tree → Prop
  | file {levels bytes} : Plain levels (.file bytes)
  | folder {levels entries} (names : ∀ name child, (name, child) ∈ entries → PlainName name)
    (distinct : entries.Pairwise fun a b => ¬SameName a.1 b.1)
    (below : ∀ name child, (name, child) ∈ entries → Plain levels child) :
    Plain (levels + 1) (.folder entries)

variable {tree node node' child child' : Tree} {names names' : List String} {levels : Nat}
  {entries : List (String × Tree)} {name name' : String}

/-- The entries of a folder are told apart by their names. -/
theorem entry_unique (hd : entries.Pairwise fun a b => ¬SameName a.1 b.1)
    (h : (name, child) ∈ entries) (h' : (name', child') ∈ entries) (hs : SameName name name') :
    name = name' ∧ child = child' := by
  have : Std.Symm fun a b : String × Tree => ¬SameName a.1 b.1 :=
    ⟨fun a b hn hs => hn hs.symm⟩
  by_contra hne
  exact hd.forall h h' (fun he => hne (Prod.mk.inj he)) hs

theorem At.nil (h : At tree [] node) : node = tree := by
  cases h
  rfl

theorem At.plain (h : At tree names node) (hp : Plain levels tree) :
    ∀ name ∈ names, PlainName name := by
  induction h generalizing levels with
  | here => simp
  | within h _ ih =>
    cases hp with
    | folder hn _ hb =>
      rintro name (_ | ⟨_, hm⟩)
      · exact hn _ _ h
      · exact ih (hb _ _ h) name hm

/-- Paths that differ by case only lead to the same place. -/
theorem At.unique (h : At tree names node) (h' : At tree names' node')
    (hp : Plain levels tree) (hs : List.Forall₂ SameName names names') : node = node' := by
  induction h generalizing levels names' with
  | here =>
    cases hs
    exact h'.nil.symm
  | within h _ ih =>
    cases hp with
    | folder _ hd hb =>
      cases hs with
      | cons hname hnames =>
        cases h' with
        | within h'' hc =>
          obtain ⟨rfl, rfl⟩ := entry_unique hd h h'' hname
          exact ih hc (hb _ _ h) hnames

end Tree
end LayeredAssets.Disc
