import LayeredAssets.Proofs.Locator.Spared

namespace LayeredAssets.Locator
open Cache

/-- What two handles with one key refer to is one value, of the kind of that key. -/
theorem shared_content {c : Cache} (h : c.Orderly) {a b : Nat} {key : CacheKey}
    (ha : c.key? a = some key) (hb : c.key? b = some key) :
    c.sameValue a b = true ∧ ∃ content, content.kind = key.kind ∧
      c.content? a = some content ∧ c.content? b = some content := by
  refine ⟨h.sole.sameValue ha hb, ?_⟩
  obtain ⟨registered, hacc, _⟩ := h.keeps.accounted
  obtain ⟨handle, hga, rfl⟩ := Option.map_eq_some_iff.mp ha
  obtain ⟨handle', hgb, hk⟩ := Option.map_eq_some_iff.mp hb
  obtain ⟨_, _, _, _, value, hval, _⟩ := hacc.handle_live hga
  have hslot := h.sole.named hgb
  rw [hk, h.sole.named hga] at hslot
  have hvalue : handle.value = handle'.value := Option.some.inj hslot
  refine ⟨value.content, h.sole.kinds hga hval, ?_, ?_⟩
  · simp [content?, hga, hval]
  · simp [content?, hgb, ← hvalue, hval]

/-- No value is there twice. In a session that puts nothing under a key but what a construction
gives that found nothing there, handles with one key refer to one value at every moment, whatever
constructions and farewells do in between. All that a locator does is of this sort: at every moment,
also within a search, the handles of one key share one archive or one chunk. An archive that is held
is opened without a look at the loader, so a search goes the same way with a loader that does
something else with the archives that were held before. -/
theorem handles_share_one_value :
    (∀ (kindOf : CacheKey → Kind) (actions : List Action), Action.AllShare kindOf actions →
      ∀ m, Moment.Leads (Moment.start actions) m → ∀ a b key,
        m.cache.key? a = some key → m.cache.key? b = some key →
          m.cache.sameValue a b = true) ∧
    ∀ (loader : String → Stream → Except Fault Archive) (map : ResourceMap) (table : PathTable)
      (gameFiles : Option Backend) (host : Host),
      (∀ turns, Reaches host (make loader map table gameFiles)
        ((make loader map table gameFiles).after host turns)) ∧
      ∀ m, Reaches host (make loader map table gameFiles) m →
        (∀ a b key, m.cache.key? a = some key → m.cache.key? b = some key →
          m.cache.sameValue a b = true ∧ ∃ content, content.kind = key.kind ∧
            m.cache.content? a = some content ∧ m.cache.content? b = some content) ∧
        (∀ (s : ActiveSet) (name : String) (handle : Nat),
          m.cache.key? handle = some (.ofArchive s.name name) →
            (m.openArchive host s name).1.loads = m.loads ∧
            ∀ other, (m.loading other).openArchive host s name =
              ((m.openArchive host s name).1.loading other, (m.openArchive host s name).2)) ∧
        ∀ other, (∀ s ∈ m.active, ∀ name,
            (∀ handle, m.cache.key? handle ≠ some (.ofArchive s.name name)) →
              (m.loading other).load host s name = m.load host s name) →
          ∀ query, (m.loading other).ask host query =
            ((m.ask host query).1.loading other, (m.ask host query).2) := by
  refine ⟨?_, fun loader map table gameFiles host => ⟨after_reaches host _, ?_⟩⟩
  · intro kindOf actions ha m hm a b key hka hkb
    exact (Moment.leads_sharing ha hm).sole.sameValue hka hkb
  · intro m hm
    have horderly : m.cache.Orderly := hm.orderly .empty
    refine ⟨fun a b key => shared_content horderly,
      fun s name handle => openArchive_held horderly host, ?_⟩
    intro other hloads query
    have hspares : Spares m host other m := ⟨rfl, hloads, horderly, fun hk => hk⟩
    exact (Oblivious.ask query m hspares).2

def sharedKey : CacheKey := .ofArchive "game" "R1.LVL"

/-- A construction registers its own key, lets it go and registers it again. -/
def reentrant : List Action :=
  [.get sharedKey ⟨.number, 1⟩
      [.get sharedKey ⟨.number, 2⟩ [] true [], .drop 0, .get sharedKey ⟨.number, 3⟩ [] true []]
      true [],
    .remove sharedKey, .find sharedKey .number]

def walkedTwice : Locator :=
  twinLocator.after twinHost
    [.activate (gameIn "a"), .move (.ask (.animation "walk")), .move (.ask (.animation "walk"))]

def lostLoader (name : String) (stream : Stream) : Except Fault Archive :=
  if name = "R1.LVL" then .error (.archive "it is lost") else walkLoader name stream

/-- The outer construction comes too late with its own number. The archive that is lost is had from
those who hold it. -/
theorem handles_share_one_value_walk :
    Action.AllShare (fun _ => .number) reentrant ∧
      (∃ m, Moment.Leads (Moment.start reentrant) m ∧ m.due = [] ∧
        (m.cache.content? 2).bind (fun content => content.as? .number) = some (3 : UInt32) ∧
        m.cache.sameValue 2 3 = true) ∧
      Reaches twinHost twinLocator walkedTwice ∧ walkedTwice.cache.sameValue 0 2 = true ∧
      (walkedTwice.openArchive twinHost ⟨"game", false, .folder "b"⟩ "R1.LVL").1.loads = 1 ∧
      ((walkedTwice.loading lostLoader).ask twinHost (.animation "walk")).2.taken =
        [walkChunk 0xaa] := by
  obtain ⟨hsessions, hlocators⟩ := handles_share_one_value
  obtain ⟨hturns, hreached⟩ := hlocators walkLoader walkMap ⟨.empty, .empty⟩ none twinHost
  have hshare : Action.AllShare (fun _ => .number) reentrant := by
    simp [reentrant, Action.AllShare, Action.Shares]
  obtain ⟨registered, hleads⟩ := Moment.leads_run .empty (reentrant.map .act) []
  have hk2 : (Cache.empty.run (reentrant.map .act)).key? 2 = some sharedKey := by decide +kernel
  have hk3 : (Cache.empty.run (reentrant.map .act)).key? 3 = some sharedKey := by decide +kernel
  have hnumber : ((Cache.empty.run (reentrant.map .act)).content? 2).bind
      (fun content => content.as? .number) = some (3 : UInt32) := by decide +kernel
  have hreaches : Reaches twinHost twinLocator walkedTwice := hturns _
  obtain ⟨hsame, hopen, hspared⟩ := hreached walkedTwice hreaches
  have h0 : walkedTwice.cache.key? 0 = some sharedKey := by decide +kernel
  have h2 : walkedTwice.cache.key? 2 = some sharedKey := by decide +kernel
  have hactive : walkedTwice.active.map ActiveSet.name = ["game"] := by decide +kernel
  refine ⟨hshare, ⟨_, hleads, rfl, ?_, ?_⟩, hreaches, (hsame 0 2 sharedKey h0 h2).1, ?_, ?_⟩
  · exact hnumber
  · exact hsessions _ _ hshare _ hleads 2 3 sharedKey hk2 hk3
  · rw [(hopen ⟨"game", false, .folder "b"⟩ "R1.LVL" 0 h0).1]
    decide +kernel
  · rw [hspared lostLoader ?_ (.animation "walk")]
    · decide +kernel
    · intro s hs name hfree
      have hset : s.name ∈ walkedTwice.active.map ActiveSet.name := List.mem_map_of_mem hs
      rw [hactive, List.mem_singleton] at hset
      have hname : name ≠ "R1.LVL" := by
        rintro rfl
        rw [hset] at hfree
        exact hfree 0 h0
      have hloader : lostLoader name = walkedTwice.loader name := by
        funext stream
        rw [hreaches.loader_eq]
        exact if_neg hname
      unfold load loading
      dsimp only
      rw [hloader]

end LayeredAssets.Locator
