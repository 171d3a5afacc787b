import LayeredAssets.Proofs.Locator.Sounds

namespace LayeredAssets

namespace Verdict

variable {σ α β : Type} {judge : σ → β → σ × Verdict α}

/-- From the first state, the candidates are passed over up to one that settles the search. It is
judged in the state that the others left. -/
inductive Leads (judge : σ → β → σ × Verdict α) : σ → List β → σ → β → α → Prop where
  | here {s : σ} {c : β} {rest : List β} {found : α} (settles : (judge s c).2 = .settle found) :
      Leads judge s (c :: rest) s c found
  | later {s t : σ} {c d : β} {rest : List β} {found : α} (skipped : (judge s c).2 = .passOver)
      (leads : Leads judge (judge s c).1 rest t d found) : Leads judge s (c :: rest) t d found

theorem first_of_settle {s : σ} {c : β} {found : α} (h : (judge s c).2 = .settle found)
    (rest : List β) : (first judge s (c :: rest)).2 = some found := by
  rw [first]
  generalize judge s c = judged at h ⊢
  obtain ⟨s', verdict⟩ := judged
  cases h
  rfl

theorem first_of_passOver {s : σ} {c : β} (h : (judge s c).2 = .passOver) (rest : List β) :
    first judge s (c :: rest) = first judge (judge s c).1 rest := by
  rw [first]
  generalize judge s c = judged at h ⊢
  obtain ⟨s', verdict⟩ := judged
  cases h
  rfl

theorem first_eq_some_iff {s : σ} {candidates : List β} {found : α} :
    (first judge s candidates).2 = some found ↔ ∃ t c, Leads judge s candidates t c found := by
  constructor
  · intro h
    induction candidates generalizing s with
    | nil => cases h
    | cons c rest ih =>
      cases hc : (judge s c).2 with
      | passOver =>
        rw [first_of_passOver hc] at h
        obtain ⟨t, d, hd⟩ := ih h
        exact ⟨t, d, .later hc hd⟩
      | settle other =>
        rw [first_of_settle hc] at h
        cases h
        exact ⟨s, c, .here hc⟩
      | refuse =>
        rw [first] at h
        split at h
        · next hj => simp [hj] at hc
        · next hj => simp [hj] at hc
        · cases h
  · rintro ⟨t, c, h⟩
    induction h with
    | here settles => exact first_of_settle settles _
    | later skipped _ ih => rwa [first_of_passOver skipped]

namespace Leads

variable {s t : σ} {candidates : List β} {c : β} {found : α}

theorem mem (h : Leads judge s candidates t c found) : c ∈ candidates := by
  induction h with
  | here => exact List.mem_cons_self
  | later _ _ ih => exact List.mem_cons_of_mem _ ih

theorem settles (h : Leads judge s candidates t c found) : (judge t c).2 = .settle found := by
  induction h with
  | here settles => exact settles
  | later _ _ ih => exact ih

/-- What judging keeps is kept up to the candidate that settles the search. -/
theorem kept {P : σ → Prop} (h : Leads judge s candidates t c found)
    (keeps : ∀ s c, P s → P (judge s c).1) (start : P s) : P t := by
  induction h with
  | here => exact start
  | later _ _ ih => exact ih (keeps _ _ start)

end Leads
end Verdict

namespace Locator

/-- The other locator differs in nothing but what it has shared. -/
structure Alike (l other : Locator) : Prop where
  setup : other = { l with cache := other.cache, loads := other.loads }

namespace Alike

variable {l l' l'' : Locator} {host : Host} {s : ActiveSet} {name : String}

theorem refl (l : Locator) : Alike l l := ⟨rfl⟩

theorem trans (h : Alike l l') (h' : Alike l' l'') : Alike l l'' where
  setup := by
    rw [h'.setup, h.setup]

theorem map_eq (h : Alike l l') : l'.map = l.map := by rw [h.setup]

theorem active_eq (h : Alike l l') : l'.active = l.active := by rw [h.setup]

theorem openArchive (l : Locator) (host : Host) (s : ActiveSet) (name : String) :
    Alike l (l.openArchive host s name).1 := by
  unfold Locator.openArchive
  split <;> exact ⟨rfl⟩

theorem release (h : Alike l l') (handle : Nat) : Alike l (l'.release handle) :=
  h.trans ⟨rfl⟩

theorem withArchive {α : Type} {judge : Locator → Archive → Locator × Verdict α}
    (hj : ∀ l archive, Alike l (judge l archive).1) (l : Locator) (s : ActiveSet) (name : String) :
    Alike l (l.withArchive host s name judge).1 := by
  have ho := openArchive l host s name
  unfold Locator.withArchive
  generalize l.openArchive host s name = opened at ho ⊢
  obtain ⟨l', _ | held⟩ := opened
  · exact ho
  · exact (ho.trans (hj l' held.value)).release held.handle

theorem first {α β : Type} {judge : Locator → β → Locator × Verdict α}
    (hj : ∀ l candidate, Alike l (judge l candidate).1) (l : Locator) (candidates : List β) :
    Alike l (Verdict.first judge l candidates).1 := by
  induction candidates generalizing l with
  | nil => exact refl l
  | cons candidate rest ih =>
    have hc := hj l candidate
    rw [Verdict.first]
    generalize judge l candidate = judged at hc ⊢
    obtain ⟨l', _ | found | _⟩ := judged
    · exact hc.trans (ih l')
    · exact hc
    · exact hc

theorem judgeBank (l : Locator) (candidate : ActiveSet × BankMapping) :
    Alike l (judgeBank host name l candidate).1 := by
  refine withArchive (fun l archive => ?_) l candidate.1 candidate.2.archive
  split
  · split <;> exact refl l
  · exact refl l

theorem locateBank (l : Locator) (host : Host) (name : String) :
    Alike l (l.locateBank host name).1 :=
  first judgeBank l _

theorem judgeMusic (mapping : MusicMapping) (l : Locator) (s : ActiveSet) :
    Alike l (judgeMusic host name mapping l s).1 := by
  refine withArchive (fun l archive => ?_) l s mapping.archive
  cases archive.file? mapping.file with
  | none => exact refl l
  | some file =>
    have hb := locateBank l host mapping.bank
    dsimp only
    generalize l.locateBank host mapping.bank = located at hb ⊢
    obtain ⟨l', _ | bank⟩ := located
    · exact hb
    · dsimp only
      cases file.at? mapping.index <;> exact hb

theorem bankCandidates_eq (h : Alike l l') (name : String) :
    l'.bankCandidates name = l.bankCandidates name := by
  unfold bankCandidates builtIn
  rw [h.map_eq, h.active_eq]

end Alike

theorem withArchive_settle {α : Type} {l : Locator} {host : Host} {s : ActiveSet} {name : String}
    {judge : Locator → Archive → Locator × Verdict α} {found : α}
    (h : (l.withArchive host s name judge).2 = .settle found) : ∃ archive,
      (judge (l.openArchive host s name).1 archive).2 = .settle found := by
  unfold withArchive at h
  generalize l.openArchive host s name = opened at h ⊢
  obtain ⟨l', _ | held⟩ := opened
  · cases h
  · exact ⟨held.value, h⟩

/-- The bank is from the data set of the first mapping of its name that is not passed over, in the
order of the data sets. -/
def BankLeads (l : Locator) (host : Host) (name : String) (s : ActiveSet) (mapping : BankMapping)
    (bank : SoundBank) : Prop :=
  ∃ l', Verdict.Leads (judgeBank host name) l (l.bankCandidates name) l' (s, mapping) bank

/-- A sound of a data set, and the bank that it is played with, which one locator searched for with
what it had shared by then. The search is by the bank's name alone, in all games that are active. -/
structure Accompanied (l searched : Locator) (host : Host) (dataSet bankName : String)
    (bank : SoundBank) : Prop where
  owner : ∃ s ∈ l.active, s.isMod = false ∧ s.name = dataSet
  located : (searched.locateBank host bankName).2 = some bank
  first : ∃ s ∈ l.active, ∃ mapping,
    searched.BankLeads host bankName s mapping bank ∧ bank.dataSet = s.name
  own : (∀ s ∈ l.active, s.isMod = false →
    (∃ mapping ∈ l.map.banksNamed bankName, mapping.dataSet = s.name) → s.name = dataSet) →
      bank.dataSet = dataSet

/-- The locator finds the bank, which is the one that the first mapping of its name is for, of those
that the active games have all files of. -/
structure Banked (l : Locator) (host : Host) (bankName : String) (bank : SoundBank) : Prop where
  located : (l.locateBank host bankName).2 = some bank
  decided : Verdict.Decides (fun c => l.BankPassed host c.1 c.2)
    (fun c => l.BankSettled host bankName c.1 c.2) (l.bankCandidates bankName) (some bank)

section
variable {known : List ActiveSet} {l : Locator} {host : Host} {name owner : String} {s : ActiveSet}
  {bank : SoundBank}

theorem mem_bankCandidates_iff {mapping : BankMapping} : (s, mapping) ∈ l.bankCandidates name ↔
    s ∈ l.builtIn ∧ mapping ∈ l.map.banksNamed name ∧ mapping.dataSet = s.name := by
  simp [bankCandidates]

theorem mem_builtIn_iff : s ∈ l.builtIn ↔ s ∈ l.active ∧ s.isMod = false := by
  simp [builtIn]

theorem judgeBank_settle {mapping : BankMapping}
    (h : (judgeBank host name l (s, mapping)).2 = .settle bank) : bank.dataSet = s.name := by
  obtain ⟨archive, h⟩ := withArchive_settle h
  split at h
  · split at h
    · cases h
      rfl
    · cases h
  · cases h

theorem locateBank_eq_some_iff : (l.locateBank host name).2 = some bank ↔
    ∃ s mapping, l.BankLeads host name s mapping bank := by
  rw [locateBank, Verdict.first_eq_some_iff]
  constructor
  · rintro ⟨l', ⟨s, mapping⟩, h⟩
    exact ⟨s, mapping, l', h⟩
  · rintro ⟨s, mapping, l', h⟩
    exact ⟨l', (s, mapping), h⟩

theorem BankLeads.dataSet_eq {mapping : BankMapping} (h : l.BankLeads host name s mapping bank) :
    bank.dataSet = s.name := by
  obtain ⟨l', h⟩ := h
  exact judgeBank_settle h.settles

theorem BankLeads.mem {mapping : BankMapping} (h : l.BankLeads host name s mapping bank) :
    (s, mapping) ∈ l.bankCandidates name := by
  obtain ⟨l', h⟩ := h
  exact h.mem

/-- A bank that was located goes with a sound of any data set that is active. -/
theorem Accompanied.of_located {searched : Locator} (alike : Alike l searched) (hs : s ∈ l.builtIn)
    (hname : s.name = owner) (h : (searched.locateBank host name).2 = some bank) :
    l.Accompanied searched host owner name bank := by
  obtain ⟨hactive, hgame⟩ := mem_builtIn_iff.mp hs
  obtain ⟨t, mapping, hleads⟩ := locateBank_eq_some_iff.mp h
  have hset := hleads.dataSet_eq
  have hm := hleads.mem
  rw [alike.bankCandidates_eq, mem_bankCandidates_iff, mem_builtIn_iff] at hm
  obtain ⟨⟨htactive, htgame⟩, hmapped, howns⟩ := hm
  exact {
    owner := ⟨s, hactive, hgame, hname⟩
    located := h
    first := ⟨t, htactive, mapping, hleads, hset⟩
    own := fun hsole => hset.trans (hsole t htactive htgame ⟨mapping, hmapped, howns⟩) }

theorem Banked.of_uncached (h : Serves known l host l)
    (hb : l.uncachedBank host name = some bank) : l.Banked host name bank where
  located := (h.locateBank name).2.trans hb
  decided := (uncachedBank_eq_iff _).mp hb

theorem locateEffect_accompanied {effect : SoundEffect}
    (h : (l.locateEffect host name).2 = some effect) : ∃ mapping,
      l.map.effect? name = some mapping ∧ effect.dataSet = mapping.dataSet ∧
        l.Accompanied l host effect.dataSet mapping.bank effect.bank := by
  unfold locateEffect at h
  cases hm : l.map.effect? name with
  | none =>
    rw [hm] at h
    cases h
  | some mapping =>
    rw [hm] at h
    dsimp only at h
    split at h
    · next hany =>
      obtain ⟨s, hs, hname⟩ := List.any_eq_true.mp hany
      cases hb : l.locateBank host mapping.bank with
      | mk l' found =>
        rw [hb] at h
        cases found with
        | none => cases h
        | some bank =>
          cases h
          exact ⟨mapping, rfl, rfl,
            .of_located (.refl l) hs (beq_iff_eq.mp hname) (congrArg Prod.snd hb)⟩
    · cases h

/-- The bank of a piece of music is located while the archive of the music is open. -/
theorem judgeMusic_settle {mapping : MusicMapping} {music : Music}
    (h : (judgeMusic host name mapping l s).2 = .settle music) : music.dataSet = s.name ∧
      ((l.openArchive host s mapping.archive).1.locateBank host mapping.bank).2 =
        some music.bank := by
  obtain ⟨archive, h⟩ := withArchive_settle h
  generalize (l.openArchive host s mapping.archive).1 = l' at h ⊢
  cases hf : archive.file? mapping.file with
  | none =>
    rw [hf] at h
    cases h
  | some file =>
    rw [hf] at h
    cases hb : l'.locateBank host mapping.bank with
    | mk l'' found =>
      rw [hb] at h
      cases found with
      | none => cases h
      | some bank =>
        cases hs : file.at? mapping.index with
        | none =>
          simp only [hs] at h
          cases h
        | some sequence =>
          simp only [hs] at h
          cases h
          exact ⟨rfl, rfl⟩

/-- The bank of a piece of music is searched for with what the data sets before its own left in the
cache, and with its own archive held. -/
theorem locateMusic_accompanied {music : Music}
    (h : (l.locateMusic host name).2 = some music) : ∃ mapping,
      l.map.music? name = some mapping ∧ music.dataSet = mapping.dataSet ∧
        ∃ t s, Verdict.Leads (judgeMusic host name mapping) l
            (l.builtIn.filter fun s => s.name == mapping.dataSet) t s music ∧
          l.Accompanied (t.openArchive host s mapping.archive).1 host music.dataSet mapping.bank
            music.bank := by
  unfold locateMusic at h
  cases hm : l.map.music? name with
  | none =>
    rw [hm] at h
    cases h
  | some mapping =>
    rw [hm] at h
    obtain ⟨t, s, hl⟩ := Verdict.first_eq_some_iff.mp h
    obtain ⟨hs, howns⟩ := List.mem_filter.mp hl.mem
    obtain ⟨hset, hbank⟩ := judgeMusic_settle hl.settles
    have alike : Alike l t :=
      hl.kept (fun m s hm => hm.trans (Alike.judgeMusic mapping m s)) (Alike.refl l)
    refine ⟨mapping, rfl, hset.trans (beq_iff_eq.mp howns), t, s, hl, ?_⟩
    exact .of_located (alike.trans (Alike.openArchive t host s mapping.archive)) hs hset.symm hbank

/-- Where all that is shared is genuine, the music's bank is the one that its name alone leads to:
neither the archive that is held nor what was passed over matters. -/
theorem locateMusic_banked (hl : Serves known l host l) {mapping : MusicMapping} {music : Music}
    (mapped : l.map.music? name = some mapping) (h : (l.locateMusic host name).2 = some music) :
    l.Banked host mapping.bank music.bank := by
  rw [(hl.locateMusic name).2, uncachedMusic, mapped] at h
  obtain ⟨s, hm, hs⟩ := Verdict.pick_eq_some h
  have plays := MusicPlays.of_appraise mapped hm hs
  cases plays with
  | found mapped' _ _ _ _ _ banked _ =>
    obtain rfl := Option.some.inj (mapped.symm.trans mapped')
    exact .of_uncached hl banked

end

/-- A sound is from the data set that its mapping names, which must be active. Its bank is the one
that is located by its name. It is from the same data set where no other game has a bank of that
name. Where names tell the data sets apart that were ever active, what the cache holds does not
matter, and the first mapping of the bank's name decides that the games have all files of. -/
theorem bank_located_by_name (l : Locator) (host : Host) (name : String) :
    (∀ effect, (l.locateEffect host name).2 = some effect → ∃ mapping,
        l.map.effect? name = some mapping ∧ effect.dataSet = mapping.dataSet ∧
          l.Accompanied l host effect.dataSet mapping.bank effect.bank ∧
          ∀ known, Serves known l host l → l.Banked host mapping.bank effect.bank) ∧
      ∀ music, (l.locateMusic host name).2 = some music → ∃ mapping,
        l.map.music? name = some mapping ∧ music.dataSet = mapping.dataSet ∧
          (∃ t s, Verdict.Leads (judgeMusic host name mapping) l
              (l.builtIn.filter fun s => s.name == mapping.dataSet) t s music ∧
            l.Accompanied (t.openArchive host s mapping.archive).1 host music.dataSet mapping.bank
              music.bank) ∧
          ∀ known, Serves known l host l → l.Banked host mapping.bank music.bank := by
  constructor
  · intro effect h
    obtain ⟨mapping, mapped, hset, hbank⟩ := locateEffect_accompanied h
    refine ⟨mapping, mapped, hset, hbank, ?_⟩
    intro known hl
    exact .of_uncached hl ((hl.locateBank mapping.bank).2.symm.trans hbank.located)
  · intro music h
    obtain ⟨mapping, mapped, hset, hbank⟩ := locateMusic_accompanied h
    refine ⟨mapping, mapped, hset, hbank, ?_⟩
    intro known hl
    exact locateMusic_banked hl mapped h

/-- A sound effect of the game beside its song, with the same bank. -/
def bellMap : ResourceMap := songMap.addEffect ⟨"bell", "game", "band", 1, 60, 0, 127⟩

def bellLocator (active : List ActiveSet) : Locator :=
  (make songLoader bellMap ⟨.empty, .empty⟩ none).setActive active

theorem bank_located_by_name_bell :
    (∃ effect, ((bellLocator (gameIn "a")).locateEffect twinHost "bell").2 = some effect ∧
        effect.bank.dataSet = "game" ∧
        (bellLocator (gameIn "a")).Banked twinHost "band" effect.bank) ∧
      ∃ music, ((bellLocator (gameIn "a")).locateMusic twinHost "song").2 = some music ∧
        music.bank.dataSet = "game" ∧
        (bellLocator (gameIn "a")).Banked twinHost "band" music.bank := by
  have hl : Serves (gameIn "a") (bellLocator (gameIn "a")) twinHost (bellLocator (gameIn "a")) :=
    .fresh (List.nodup_singleton _) rfl rfl
  have hsole : ∀ s ∈ (bellLocator (gameIn "a")).active, s.name = "game" := by
    intro s hs
    rw [List.mem_singleton.mp hs]
  constructor
  · have hbell : ((bellLocator (gameIn "a")).locateEffect twinHost "bell").2.map
        SoundEffect.dataSet = some "game" := by decide +kernel
    obtain ⟨effect, heffect, hgame⟩ := Option.map_eq_some_iff.mp hbell
    obtain ⟨mapping, mapped, -, hbank, hbanked⟩ :=
      (bank_located_by_name (bellLocator (gameIn "a")) twinHost "bell").1 effect heffect
    cases mapped
    refine ⟨effect, heffect, (hbank.own fun s hs _ _ => ?_).trans hgame, hbanked _ hl⟩
    rw [hsole s hs, hgame]
  · have hsong : ((bellLocator (gameIn "a")).locateMusic twinHost "song").2.map
        Music.dataSet = some "game" := by decide +kernel
    obtain ⟨music, hmusic, hgame⟩ := Option.map_eq_some_iff.mp hsong
    obtain ⟨mapping, mapped, -, ⟨t, s, -, hbank⟩, hbanked⟩ :=
      (bank_located_by_name (bellLocator (gameIn "a")) twinHost "song").2 music hmusic
    cases mapped
    refine ⟨music, hmusic, (hbank.own fun s hs _ _ => ?_).trans hgame, hbanked _ hl⟩
    rw [hsole s hs, hgame]

/-- A data set in front of the game has a bank of the same name, and the bank is taken from
there. -/
theorem bank_from_other_data_set : ¬ ∀ (loader : String → Stream → Except Fault Archive)
    (map : ResourceMap) (table : PathTable) (gameFiles : Option Backend) (host : Host)
    (active : List ActiveSet) (name : String),
      (∀ effect, (((make loader map table gameFiles).setActive active).locateEffect host name).2 =
          some effect → effect.bank.dataSet = effect.dataSet) ∧
        ∀ music, (((make loader map table gameFiles).setActive active).locateMusic host name).2 =
          some music → music.bank.dataSet = music.dataSet := by
  intro hall
  have hsong : (((bellLocator (moreIn "a" ++ gameIn "b")).locateMusic twinHost "song").2.map
      fun music => (music.dataSet, music.bank.dataSet)) = some ("game", "more") := by
    decide +kernel
  obtain ⟨music, hmusic, hsets⟩ := Option.map_eq_some_iff.mp hsong
  have hsame := (hall songLoader bellMap ⟨.empty, .empty⟩ none twinHost
    (moreIn "a" ++ gameIn "b") "song").2 music hmusic
  rw [Prod.mk.injEq] at hsets
  rw [hsets.1, hsets.2] at hsame
  exact absurd hsame (by decide)

end Locator
end LayeredAssets
