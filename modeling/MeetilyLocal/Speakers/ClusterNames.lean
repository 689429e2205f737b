import MeetilyLocal.Speakers.Clustering

/-!
# The names of the clusters

What `cluster_identity` and `refine` (`speaker_diarization/refinement.rs`) call the clusters.

The dominant profile of a cluster is found in one scan, in which a count must be exceeded. So of
several profiles that are pinned most often it is not the one that is pinned first, as the comment
there has it, but the one whose last pin comes first (`endsBefore_of_dominantPinned`). The two are
the same if the profile that is pinned first is also done first
(`namesFirstDominant_iff`).

The clusters are named in the order in which they first appear, and those that match nothing are
numbered (`refine_lawful`).
-/

namespace MeetilyLocal

namespace Refinement

open EmbeddingMath

/-! ## The dominant profile -/

section Dominant

variable {records done : List EmbeddingRecord} {counts : String → ℕ}
  {best : Option (EmbeddingRecord × ℕ)} {record : EmbeddingRecord} {most : ℕ} {p q : String}

/-- The profiles that records are pinned to, in order. -/
def pins (records : List EmbeddingRecord) : List String :=
  records.filterMap EmbeddingRecord.voiceProfileId

theorem mem_pins : p ∈ pins records ↔ ∃ record ∈ records, record.voiceProfileId = some p := by
  simp [pins]

/-- A profile that the largest number of records is pinned to. -/
def IsDominant (records : List EmbeddingRecord) (p : String) : Prop :=
  p ∈ pins records ∧ ∀ q, (pins records).count q ≤ (pins records).count p

/-- Its first pin comes before the first pin of the other. -/
def StartsBefore (records : List EmbeddingRecord) (p q : String) : Prop :=
  (pins records).idxOf p < (pins records).idxOf q

/-- Its last pin comes before the last pin of the other. -/
def EndsBefore (records : List EmbeddingRecord) (p q : String) : Prop :=
  (pins records).reverse.idxOf q < (pins records).reverse.idxOf p

/-- The record at which the count of its profile got to the most first. -/
structure Leads (records : List EmbeddingRecord) (record : EmbeddingRecord) (most : ℕ)
    (p : String) (before after : List EmbeddingRecord) : Prop where
  /-- where it stands -/
  split : records = before ++ record :: after
  /-- its profile -/
  profile : record.voiceProfileId = some p
  /-- the count of its profile -/
  count : (pins before).count p + 1 = most
  /-- no count got there before it -/
  before : ∀ q, (pins before).count q < most
  /-- and none exceeds it -/
  le : ∀ q, (pins records).count q ≤ most

/-- What the scan knows after the records `done`. -/
structure Counted (done : List EmbeddingRecord) (counts : String → ℕ)
    (best : Option (EmbeddingRecord × ℕ)) : Prop where
  /-- how often each profile is pinned -/
  counts : ∀ p, counts p = (pins done).count p
  /-- nothing leads without a pin -/
  unled : best = none → pins done = []
  /-- what leads -/
  led : ∀ record most, best = some (record, most) →
    ∃ p before after, Leads done record most p before after

theorem pins_concat (done : List EmbeddingRecord) (record : EmbeddingRecord) :
    pins (done ++ [record]) = pins done ++ record.voiceProfileId.toList := by
  cases h : record.voiceProfileId <;> simp [pins, h]

/-- A record that is not pinned changes nothing. -/
theorem Counted.skip (h : Counted done counts best) (hrecord : record.voiceProfileId = none) :
    Counted (done ++ [record]) counts best := by
  have hpins : pins (done ++ [record]) = pins done := by rw [pins_concat, hrecord]; simp
  refine ⟨fun p => by rw [hpins, h.counts], fun hbest => by rw [hpins, h.unled hbest], ?_⟩
  intro leader most hbest
  obtain ⟨p, before, after, hleads⟩ := h.led leader most hbest
  refine ⟨p, before, after ++ [record], ?_, hleads.profile, hleads.count, hleads.before, ?_⟩
  · rw [hleads.split]
    simp
  · intro q
    rw [hpins]
    exact hleads.le q

/-- A pin raises the count of its profile, and leads if it exceeds the most. -/
theorem Counted.pin (h : Counted done counts best) (hrecord : record.voiceProfileId = some p) :
    Counted (done ++ [record]) (Function.update counts p (counts p + 1))
      (if best.all fun (_, most) => most < counts p + 1 then some (record, counts p + 1)
        else best) := by
  have hpins : pins (done ++ [record]) = pins done ++ [p] := by rw [pins_concat, hrecord]; rfl
  have hcount : ∀ q, (pins (done ++ [record])).count q =
      (pins done).count q + if q = p then 1 else 0 := by
    intro q
    rw [hpins, List.count_append, List.count_singleton, Bool.beq_comm]
    simp only [beq_iff_eq]
  refine ⟨fun q => ?_, fun hbest => ?_, fun leader most hbest => ?_⟩
  · rw [hcount]
    by_cases hq : q = p
    · rw [hq, Function.update_self, if_pos rfl, h.counts]
    · rw [Function.update_of_ne hq, if_neg hq, h.counts, Nat.add_zero]
  · split at hbest
    · cases hbest
    next hall =>
      rw [hbest] at hall
      exact absurd rfl hall
  · split at hbest
    next hall =>
      obtain ⟨rfl, rfl⟩ := Prod.mk.inj (Option.some.inj hbest)
      -- every count so far is at most the most so far, which is exceeded
      have hlt : ∀ q, (pins done).count q < counts p + 1 := by
        intro q
        rcases hb : best with _ | ⟨leader, most⟩
        · rw [h.unled hb, List.count_nil]
          omega
        · obtain ⟨p', before, after, hleads⟩ := h.led leader most hb
          rw [hb] at hall
          have := hleads.le q
          simp only [Option.all_some, decide_eq_true_eq] at hall
          omega
      refine ⟨p, done, [], rfl, hrecord, by rw [h.counts], hlt, fun q => ?_⟩
      rw [hcount]
      have := hlt q
      split
      next hq => rw [hq, h.counts]
      next => omega
    next hall =>
      rw [hbest] at hall
      obtain ⟨p', before, after, hleads⟩ := h.led leader most hbest
      refine ⟨p', before, after ++ [record], ?_, hleads.profile, hleads.count, hleads.before, ?_⟩
      · rw [hleads.split]
        simp
      · intro q
        rw [hcount]
        have := hleads.le q
        simp only [Option.all_some, decide_eq_true_eq, not_lt, h.counts] at hall
        split
        next hq => rw [hq]; omega
        next => omega

/-- The scan, from any point on. -/
theorem Counted.dominantPinned (h : Counted done counts best) (records : List EmbeddingRecord) :
    ∃ counts', Counted (done ++ records) counts' (dominantPinned records counts best) := by
  induction records generalizing done counts best with
  | nil => exact ⟨counts, by rwa [List.append_nil]⟩
  | cons record records ih =>
    rw [Refinement.dominantPinned, List.append_cons]
    cases hrecord : record.voiceProfileId with
    | none => simpa using ih (h.skip hrecord)
    | some p => simpa using ih (h.pin hrecord)

theorem counted_nil : Counted [] (fun _ => 0) none :=
  ⟨fun _ => rfl, fun _ => rfl, nofun⟩

/-- What the scan over all members finds. -/
theorem leads_dominantPinned (h : dominantPinned records (fun _ => 0) none = some (record, most)) :
    ∃ p before after, Leads records record most p before after := by
  obtain ⟨counts, hcounted⟩ := counted_nil.dominantPinned records
  exact hcounted.led record most h

/-- It finds something if a record is pinned. -/
theorem dominantPinned_of_mem_pins (hp : p ∈ pins records) :
    ∃ record most, dominantPinned records (fun _ => 0) none = some (record, most) := by
  obtain ⟨counts, hcounted⟩ := counted_nil.dominantPinned records
  rcases hbest : dominantPinned records (fun _ => 0) none with _ | ⟨record, most⟩
  · have hnil := hcounted.unled hbest
    rw [List.nil_append] at hnil
    rw [hnil] at hp
    cases hp
  · exact ⟨record, most, rfl⟩

section Leader

variable {before after : List EmbeddingRecord} (h : Leads records record most p before after)

include h

theorem Leads.pins_eq : pins records = pins before ++ p :: pins after := by
  rw [h.split, pins, List.filterMap_append, List.filterMap_cons, h.profile]
  rfl

/-- No pin of the leader comes after it. -/
theorem Leads.notMem_after : p ∉ pins after := by
  intro hp
  have hle := h.le p
  rw [h.pins_eq, List.count_append, List.count_cons_self] at hle
  have := List.count_pos_iff.mpr hp
  have := h.count
  omega

theorem Leads.count_eq : (pins records).count p = most := by
  rw [h.pins_eq, List.count_append, List.count_cons_self, List.count_eq_zero.mpr h.notMem_after]
  have := h.count
  omega

theorem Leads.isDominant : IsDominant records p := by
  refine ⟨?_, fun q => ?_⟩
  · rw [h.pins_eq]
    simp
  · rw [h.count_eq]
    exact h.le q

/-- Every other dominant profile is pinned once more after it. -/
theorem Leads.mem_after (hq : IsDominant records q) (hne : q ≠ p) : q ∈ pins after := by
  have hle := hq.2 p
  rw [h.count_eq, h.pins_eq, List.count_append, List.count_cons_of_ne hne.symm] at hle
  have := h.before q
  exact List.count_pos_iff.mp (by omega)

/-- **The tie goes to the profile that is done first.** -/
theorem Leads.endsBefore (hq : IsDominant records q) (hne : q ≠ p) : EndsBefore records p q := by
  have hp : p ∉ (pins after).reverse := fun hp => h.notMem_after (List.mem_reverse.mp hp)
  have hq : q ∈ (pins after).reverse := List.mem_reverse.mpr (h.mem_after hq hne)
  have hreverse : (pins records).reverse = (pins after).reverse ++ p :: (pins before).reverse := by
    rw [h.pins_eq]
    simp
  rw [EndsBefore, hreverse, List.idxOf_append_of_mem hq, List.idxOf_append_of_notMem hp]
  exact Nat.lt_add_right _ (List.idxOf_lt_length_iff.mpr hq)

theorem Leads.clusterIdentity (hbest : dominantPinned records (fun _ => 0) none = some (record, most))
    (matcher : Option SpeakerProfileMatcher) :
    clusterIdentity records matcher = some (some (record.label, some p)) := by
  rw [Refinement.clusterIdentity.eq_def, hbest, ← h.profile]

theorem Leads.mem : record ∈ records := by
  rw [h.split]
  simp

end Leader

/-- A cluster gets the label and the id of the dominant profile, and among several of the one that
is pinned first. -/
def NamesFirstDominant (records : List EmbeddingRecord) (matcher : Option SpeakerProfileMatcher) :
    Prop :=
  ∃ p, IsDominant records p ∧ (∀ q, IsDominant records q → q ≠ p → StartsBefore records p q) ∧
    ∃ record ∈ records, record.voiceProfileId = some p ∧
      clusterIdentity records matcher = some (some (record.label, some p))

/-- Of the dominant profiles, the one that is pinned first is also done first. -/
def FirstEndsFirst (records : List EmbeddingRecord) : Prop :=
  ∃ p, IsDominant records p ∧
    ∀ q, IsDominant records q → q ≠ p → StartsBefore records p q ∧ EndsBefore records p q

/-- **The dominant profile.** A cluster is named as documented if and only if of the profiles that
are pinned most often the one that is pinned first is also done first. -/
theorem namesFirstDominant_iff (records : List EmbeddingRecord)
    (matcher : Option SpeakerProfileMatcher) :
    NamesFirstDominant records matcher ↔ FirstEndsFirst records := by
  constructor
  · rintro ⟨p, hp, hfirst, record, -, -, hidentity⟩
    obtain ⟨leader, most, hbest⟩ := dominantPinned_of_mem_pins hp.1
    obtain ⟨w, before, after, hleads⟩ := leads_dominantPinned hbest
    -- the profile that is named is the one that leads
    rw [hleads.clusterIdentity hbest] at hidentity
    obtain rfl : w = p := by
      have := Option.some.inj (Option.some.inj hidentity)
      exact Option.some.inj (Prod.mk.inj this).2
    exact ⟨w, hp, fun q hq hne => ⟨hfirst q hq hne, hleads.endsBefore hq hne⟩⟩
  · rintro ⟨p, hp, hfirst⟩
    obtain ⟨leader, most, hbest⟩ := dominantPinned_of_mem_pins hp.1
    obtain ⟨w, before, after, hleads⟩ := leads_dominantPinned hbest
    obtain rfl : w = p := by
      by_contra hne
      have hp' := hleads.endsBefore hp (Ne.symm hne)
      have hw := (hfirst w hleads.isDominant hne).2
      rw [EndsBefore] at hp' hw
      omega
    exact ⟨w, hp, fun q hq hne => (hfirst q hq hne).1, leader, hleads.mem, hleads.profile,
      hleads.clusterIdentity hbest matcher⟩

/-- Four members of a cluster: John's profile is pinned first and last, Mary's in between. -/
def around : List EmbeddingRecord :=
  [⟨1, [], some "profile-1", "John"⟩, ⟨2, [], some "profile-2", "Mary"⟩,
    ⟨3, [], some "profile-2", "Mary"⟩, ⟨4, [], some "profile-1", "John"⟩]

/-- They are called Mary. -/
theorem not_namesFirstDominant_around :
    ¬∀ (records : List EmbeddingRecord) (matcher : Option SpeakerProfileMatcher),
      (∃ record ∈ records, record.voiceProfileId.isSome = true) →
        NamesFirstDominant records matcher := by
  intro h
  obtain ⟨p, hp, hfirst, record, -, -, hidentity⟩ := h around none
    ⟨⟨1, [], some "profile-1", "John"⟩, by simp [around], rfl⟩
  have hmary : clusterIdentity around none = some (some ("Mary", some "profile-2")) := by
    simp [clusterIdentity, around, dominantPinned]
  have hjohn : IsDominant around "profile-1" := by
    refine ⟨by simp [pins, around], fun q => ?_⟩
    by_cases hj : q = "profile-1"
    · rw [hj]
    · by_cases hm : q = "profile-2"
      · rw [hm]
        decide
      · have hzero : (pins around).count q = 0 := by
          simp [pins, around, List.count_eq_zero, hj, hm]
        omega
  rw [hmary] at hidentity
  obtain rfl : "profile-2" = p := by
    have := Option.some.inj (Option.some.inj hidentity)
    exact Option.some.inj (Prod.mk.inj this).2
  have hlt := hfirst "profile-1" hjohn (by decide)
  simp [StartsBefore, pins, around] at hlt

end Dominant

/-! ## The centroids -/

section Centroids

variable {records : List EmbeddingRecord}

theorem length_addInto {acc e acc' : List Float32} (h : addInto acc e = some acc') :
    acc'.length = acc.length := by
  rw [addInto] at h
  split at h
  · cases h
  · rw [← Option.some.inj h]
    simp
    omega

/-- Adding up runs nowhere out of bounds if and only if no vector is longer than the sum. -/
theorem isSome_foldlM_addInto (embeddings : List (List Float32)) (acc : List Float32) :
    (embeddings.foldlM addInto acc).isSome = true ↔ ∀ e ∈ embeddings, e.length ≤ acc.length := by
  induction embeddings generalizing acc with
  | nil => simp
  | cons e embeddings ih =>
    rw [List.foldlM_cons, List.forall_mem_cons]
    cases hadd : addInto acc e with
    | none =>
      have hlt : acc.length < e.length := by
        by_contra hle
        simp [addInto, hle] at hadd
      simp only [Option.bind_eq_bind, Option.bind_none, Option.isSome_none, Bool.false_eq_true,
        false_iff, not_and]
      omega
    | some acc' =>
      have hle : e.length ≤ acc.length := by
        by_contra hlt
        simp [addInto, not_le.mp hlt] at hadd
      rw [Option.bind_eq_bind, Option.bind_some, ih acc', length_addInto hadd, and_iff_right hle]

/-- No embedding is longer than the first one. -/
def Averageable (records : List EmbeddingRecord) : Prop :=
  ∀ first ∈ records.head?, ∀ record ∈ records, record.embedding.length ≤ first.embedding.length

theorem isSome_averageAndNormalize_iff (records : List EmbeddingRecord) :
    (averageAndNormalize (records.map EmbeddingRecord.embedding)).isSome = true ↔
      Averageable records := by
  cases records with
  | nil => simp [averageAndNormalize, Averageable]
  | cons first records =>
    simp only [List.map_cons, averageAndNormalize, Option.isSome_map]
    rw [← List.map_cons (f := EmbeddingRecord.embedding), isSome_foldlM_addInto,
      List.length_replicate]
    simp [Averageable]

/-- A cluster gets its name, or its number, without running out of bounds. -/
def Nameable (records : List EmbeddingRecord) (matcher : Option SpeakerProfileMatcher) : Prop :=
  matcher = none ∨ pins records ≠ [] ∨ Averageable records

theorem isSome_clusterIdentity_iff (records : List EmbeddingRecord)
    (matcher : Option SpeakerProfileMatcher) :
    (clusterIdentity records matcher).isSome = true ↔ Nameable records matcher := by
  rw [Nameable]
  rcases hpins : pins records with _ | ⟨p, ps⟩
  · have hnone : dominantPinned records (fun _ => 0) none = none := by
      rcases hbest : dominantPinned records (fun _ => 0) none with _ | ⟨record, most⟩
      · rfl
      · obtain ⟨p, before, after, hleads⟩ := leads_dominantPinned hbest
        have := hleads.isDominant.1
        rw [hpins] at this
        cases this
    rw [clusterIdentity.eq_def, hnone]
    cases matcher with
    | none => simp
    | some matcher => simp [isSome_averageAndNormalize_iff]
  · obtain ⟨record, most, hbest⟩ := dominantPinned_of_mem_pins
      (show p ∈ pins records by simp [hpins])
    rw [clusterIdentity.eq_def, hbest]
    simp

/-- A cluster that is numbered has no pinned member. -/
theorem pins_of_clusterIdentity {matcher : Option SpeakerProfileMatcher}
    (h : clusterIdentity records matcher = some none) : pins records = [] := by
  rcases hpins : pins records with _ | ⟨p, ps⟩
  · rfl
  · obtain ⟨record, most, hbest⟩ := dominantPinned_of_mem_pins
      (show p ∈ pins records by simp [hpins])
    rw [clusterIdentity.eq_def, hbest] at h
    cases h

end Centroids

/-! ## Naming in order -/

section Naming

variable {history : List EmbeddingRecord} {matcher : Option SpeakerProfileMatcher}
  {clusterOf done clusters unnamed : List ℕ} {identityOf result : ℕ → Option Identity} {c : ℕ}
  {identity : Identity}

/-- What is known when the clusters of `done` have been named; those of `unnamed` were numbered. -/
structure Named (history : List EmbeddingRecord) (matcher : Option SpeakerProfileMatcher)
    (clusterOf : List ℕ) (done : List ℕ) (identityOf : ℕ → Option Identity) (unnamed : List ℕ) :
    Prop where
  /-- they have an identity -/
  known : ∀ c, (identityOf c).isSome = true ↔ c ∈ done
  /-- their own one, if they have one -/
  named : ∀ c ∈ done, ∀ identity,
    clusterIdentity (members history clusterOf c) matcher = some (some identity) →
      identityOf c = some identity
  /-- else they are numbered, -/
  mem_unnamed : ∀ c, c ∈ unnamed ↔
    c ∈ done ∧ clusterIdentity (members history clusterOf c) matcher = some none
  /-- in the order in which they first appeared, -/
  order : unnamed.Pairwise fun c d => done.idxOf c < done.idxOf d
  /-- from one on -/
  numbered : ∀ k c, unnamed[k]? = some c →
    identityOf c = some ("Speaker " ++ toString (k + 1), none)

theorem named_nil (history : List EmbeddingRecord) (matcher : Option SpeakerProfileMatcher)
    (clusterOf : List ℕ) : Named history matcher clusterOf [] (fun _ => none) [] :=
  ⟨by simp, by simp, by simp, .nil, by simp⟩

/-- The clusters that were numbered keep their order. -/
theorem Named.order_concat (h : Named history matcher clusterOf done identityOf unnamed) (c : ℕ) :
    unnamed.Pairwise fun d e => (done ++ [c]).idxOf d < (done ++ [c]).idxOf e := by
  refine h.order.imp_of_mem fun {d e} hd he hlt => ?_
  rwa [List.idxOf_append_of_mem ((h.mem_unnamed d).mp hd).1,
    List.idxOf_append_of_mem ((h.mem_unnamed e).mp he).1]

/-- A cluster that appears again. -/
theorem Named.again (h : Named history matcher clusterOf done identityOf unnamed) (hc : c ∈ done) :
    Named history matcher clusterOf (done ++ [c]) identityOf unnamed := by
  have hmem : ∀ d, d ∈ done ++ [c] ↔ d ∈ done := by
    intro d
    rw [List.mem_append, List.mem_singleton, or_iff_left_of_imp]
    rintro rfl
    exact hc
  refine ⟨fun d => ?_, fun d hd => ?_, fun d => ?_, h.order_concat c, h.numbered⟩
  · rw [hmem, h.known]
  · exact h.named d ((hmem d).mp hd)
  · rw [hmem, h.mem_unnamed]

/-- Giving a new cluster an identity leaves the others theirs. -/
theorem update_of_mem {d : ℕ} (hd : d ∈ done) (hc : c ∉ done) (identity : Identity) :
    Function.update identityOf c (some identity) d = identityOf d := by
  refine Function.update_of_ne ?_ _ _
  rintro rfl
  exact hc hd

section First

variable (h : Named history matcher clusterOf done identityOf unnamed)

include h

theorem Named.known_update (identity : Identity) (d : ℕ) :
    (Function.update identityOf c (some identity) d).isSome = true ↔ d ∈ done ++ [c] := by
  by_cases hd : d = c
  · simp [hd]
  · rw [Function.update_of_ne hd, h.known]
    simp [hd]

/-- Those that have one of their own keep it, and a new one gets its own. -/
theorem Named.named_update {found : Option Identity} (hc : c ∉ done)
    (hfound : clusterIdentity (members history clusterOf c) matcher = some found)
    (hgiven : ∀ own, found = some own → own = identity) {d : ℕ} (hd : d ∈ done ++ [c])
    {own : Identity}
    (hown : clusterIdentity (members history clusterOf d) matcher = some (some own)) :
    Function.update identityOf c (some identity) d = some own := by
  rcases List.mem_append.mp hd with hd | hd
  · rw [update_of_mem hd hc]
    exact h.named d hd own hown
  · obtain rfl := List.mem_singleton.mp hd
    rw [hfound, Option.some.injEq] at hown
    rw [Function.update_self, hgiven own hown]

/-- Those that were numbered keep their number. -/
theorem Named.numbered_update (hc : c ∉ done) (identity : Identity) {k d : ℕ}
    (hk : unnamed[k]? = some d) :
    Function.update identityOf c (some identity) d =
      some ("Speaker " ++ toString (k + 1), none) := by
  rw [update_of_mem ((h.mem_unnamed d).mp (List.mem_of_getElem? hk)).1 hc]
  exact h.numbered k d hk

/-- A new cluster that has an identity. -/
theorem Named.name (hc : c ∉ done)
    (hidentity : clusterIdentity (members history clusterOf c) matcher = some (some identity)) :
    Named history matcher clusterOf (done ++ [c])
      (Function.update identityOf c (some identity)) unnamed := by
  have hgiven : ∀ own, some identity = some own → own = identity :=
    fun _ h => (Option.some.inj h).symm
  refine ⟨h.known_update identity, fun d hd _ => h.named_update hc hidentity hgiven hd,
    fun d => ?_, h.order_concat c, fun k d => h.numbered_update hc identity⟩
  · rw [h.mem_unnamed, List.mem_append, List.mem_singleton]
    constructor
    · rintro ⟨hd, hnone⟩
      exact ⟨.inl hd, hnone⟩
    · rintro ⟨hd | rfl, hnone⟩
      · exact ⟨hd, hnone⟩
      · rw [hidentity] at hnone
        cases hnone

/-- A new cluster that has none gets the next number. -/
theorem Named.number (hc : c ∉ done)
    (hidentity : clusterIdentity (members history clusterOf c) matcher = some none) :
    Named history matcher clusterOf (done ++ [c])
      (Function.update identityOf c
        (some ("Speaker " ++ toString (unnamed.length + 1), none))) (unnamed ++ [c]) := by
  refine ⟨h.known_update _, fun d hd _ => h.named_update hc hidentity nofun hd, fun d => ?_, ?_,
    fun k d hk => ?_⟩
  · rw [List.mem_append, List.mem_append, h.mem_unnamed, List.mem_singleton]
    constructor
    · rintro (⟨hd, hnone⟩ | rfl)
      · exact ⟨.inl hd, hnone⟩
      · exact ⟨.inr rfl, hidentity⟩
    · rintro ⟨hd | hd, hnone⟩
      · exact .inl ⟨hd, hnone⟩
      · exact .inr hd
  · -- it appeared after all that were numbered before
    refine List.pairwise_append.mpr ⟨h.order_concat c, List.pairwise_singleton _ _, ?_⟩
    intro d hd e he
    obtain rfl := List.mem_singleton.mp he
    have hdone := ((h.mem_unnamed d).mp hd).1
    rw [List.idxOf_append_of_mem hdone, List.idxOf_append_of_notMem hc]
    exact Nat.lt_add_right _ (List.idxOf_lt_length_iff.mpr hdone)
  · by_cases hlt : k < unnamed.length
    · rw [List.getElem?_append_left hlt] at hk
      exact h.numbered_update hc _ hk
    · rw [List.getElem?_append_right (by omega), List.getElem?_singleton] at hk
      split at hk
      next hzero =>
        rw [← Option.some.inj hk, Function.update_self, show k = unnamed.length by omega]
      next => cases hk

end First

/-- The naming of the clusters, from any point on. -/
theorem Named.identities (h : Named history matcher clusterOf done identityOf unnamed)
    (hnameable : ∀ c ∈ clusters, Nameable (members history clusterOf c) matcher) :
    ∃ result unnamed',
      identities history matcher clusterOf clusters identityOf (unnamed.length + 1) = some result ∧
        Named history matcher clusterOf (done ++ clusters) result unnamed' := by
  induction clusters generalizing done identityOf unnamed with
  | nil => exact ⟨identityOf, unnamed, rfl, by rwa [List.append_nil]⟩
  | cons c clusters ih =>
    have hrest := fun d hd => hnameable d (List.mem_cons_of_mem _ hd)
    rw [Refinement.identities, List.append_cons]
    by_cases hknown : (identityOf c).isSome = true
    · rw [if_pos hknown]
      exact ih (h.again ((h.known c).mp hknown)) hrest
    · rw [if_neg hknown]
      have hc : c ∉ done := fun hc => hknown ((h.known c).mpr hc)
      have hsome := (isSome_clusterIdentity_iff _ _).mpr (hnameable c List.mem_cons_self)
      obtain ⟨found, hfound⟩ := Option.isSome_iff_exists.mp hsome
      rw [hfound]
      cases found with
      | some identity => exact ih (h.name hc hfound) hrest
      | none =>
        have hnext := ih (h.number hc hfound) hrest
        rwa [List.length_append, List.length_singleton] at hnext

/-- The naming fails where a cluster cannot be named. -/
theorem Named.identities_eq_none (h : Named history matcher clusterOf done identityOf unnamed)
    (hnot : ∃ c ∈ clusters, c ∉ done ∧ ¬Nameable (members history clusterOf c) matcher) :
    Refinement.identities history matcher clusterOf clusters identityOf (unnamed.length + 1) =
      none := by
  induction clusters generalizing done identityOf unnamed with
  | nil =>
    obtain ⟨c, hc, -⟩ := hnot
    cases hc
  | cons c clusters ih =>
    obtain ⟨e, he, hdone, hnameable⟩ := hnot
    rw [Refinement.identities]
    by_cases hknown : (identityOf c).isSome = true
    · have hc := (h.known c).mp hknown
      have hec : e ≠ c := fun heq => hdone (heq ▸ hc)
      rw [if_pos hknown]
      exact ih (h.again hc) ⟨e, (List.mem_cons.mp he).resolve_left hec, by simp [hdone, hec],
        hnameable⟩
    · rw [if_neg hknown]
      have hc : c ∉ done := fun hc => hknown ((h.known c).mpr hc)
      rcases hfound : clusterIdentity (members history clusterOf c) matcher with _ | found
      · rfl
      · have hec : e ≠ c := by
          rintro rfl
          refine hnameable ((isSome_clusterIdentity_iff _ _).mp ?_)
          rw [hfound]
          rfl
        have hrest : ∃ e ∈ clusters, e ∉ done ++ [c] ∧
            ¬Nameable (members history clusterOf e) matcher :=
          ⟨e, (List.mem_cons.mp he).resolve_left hec, by simp [hdone, hec], hnameable⟩
        cases found with
        | some identity => exact ih (h.name hc hfound) hrest
        | none =>
          have hnext := ih (h.number hc hfound) hrest
          rwa [List.length_append, List.length_singleton] at hnext

end Naming

/-! ## Refining -/

section Refining

variable {history : List EmbeddingRecord} {threshold : Float32}
  {matcher : Option SpeakerProfileMatcher}

/-- The cluster of each record. -/
def clustersOf (history : List EmbeddingRecord) (threshold : Float32) : List ℕ :=
  agglomerativeCluster (history.map EmbeddingRecord.embedding) (1 - threshold)

@[simp] theorem length_clustersOf (history : List EmbeddingRecord) (threshold : Float32) :
    (clustersOf history threshold).length = history.length := by
  rw [clustersOf, agglomerativeCluster]
  split
  next hn => simpa using hn.symm
  next =>
    split
    next hn => simpa using hn.symm
    next => simp [clusterPoints]

/-- What a refinement says of a history, whose records have the clusters `clusterOf`. -/
structure Lawful (history : List EmbeddingRecord) (matcher : Option SpeakerProfileMatcher)
    (clusterOf : List ℕ) (assignments : List RefinedAssignment) : Prop where
  /-- one assignment for each record, -/
  length : assignments.length = history.length
  /-- in order -/
  record : ∀ (i : ℕ) (record : EmbeddingRecord) (a : RefinedAssignment),
    history[i]? = some record → assignments[i]? = some a →
      a.sequenceId = record.sequenceId ∧ a.previousSpeaker = record.label
  /-- a pinned record keeps its label and its profile -/
  pinned : ∀ (i : ℕ) (record : EmbeddingRecord) (a : RefinedAssignment) (profileId : String),
    history[i]? = some record → assignments[i]? = some a → record.voiceProfileId = some profileId →
      a.speaker = record.label ∧ a.voiceProfileId = some profileId ∧ a.changed = false
  /-- two others of one cluster get the same speaker and profile -/
  same : ∀ (i j : ℕ) (record record' : EmbeddingRecord) (a a' : RefinedAssignment),
    history[i]? = some record → history[j]? = some record' → assignments[i]? = some a →
      assignments[j]? = some a' → record.voiceProfileId = none → record'.voiceProfileId = none →
        clusterOf[i]? = clusterOf[j]? →
        a.speaker = a'.speaker ∧ a.voiceProfileId = a'.voiceProfileId
  /-- the clusters without an identity, in the order in which they first appear, are numbered from
  one on -/
  unnamed : ∃ unnamed : List ℕ, (unnamed.Pairwise fun c d => clusterOf.idxOf c < clusterOf.idxOf d) ∧
    (∀ c, c ∈ unnamed ↔
      c ∈ clusterOf ∧ clusterIdentity (members history clusterOf c) matcher = some none) ∧
    ∀ (k c i : ℕ) (a : RefinedAssignment), unnamed[k]? = some c → clusterOf[i]? = some c →
      assignments[i]? = some a → a.speaker = "Speaker " ++ toString (k + 1) ∧ a.voiceProfileId = none

theorem refine_eq (history : List EmbeddingRecord) (threshold : Float32)
    (matcher : Option SpeakerProfileMatcher) :
    refine history threshold matcher =
      (identities history matcher (clustersOf history threshold) (clustersOf history threshold)
        (fun _ => none) 1).map fun identityOf =>
          history.mapIdx fun i record =>
            assignment record
              ((identityOf ((clustersOf history threshold).getD i 0)).getD ("", none)) :=
  rfl

/-- A pinned record keeps what it says. -/
theorem assignment_of_pinned {record : EmbeddingRecord} {profileId : String} (identity : Identity)
    (h : record.voiceProfileId = some profileId) :
    assignment record identity =
      ⟨record.sequenceId, record.label, some profileId, false, record.label⟩ := by
  rw [assignment, h]

/-- Any other record gets the identity of its cluster. -/
theorem assignment_of_unpinned {record : EmbeddingRecord} (identity : Identity)
    (h : record.voiceProfileId = none) :
    (assignment record identity).speaker = identity.1 ∧
      (assignment record identity).voiceProfileId = identity.2 := by
  rw [assignment, h]
  exact ⟨rfl, rfl⟩

theorem mem_members {clusterOf : List ℕ} {i c : ℕ} {record : EmbeddingRecord}
    (hrecord : history[i]? = some record) (hc : clusterOf[i]? = some c) :
    record ∈ members history clusterOf c := by
  rw [members, List.mem_map]
  refine ⟨(record, c), List.mem_filter.mpr ⟨?_, by simp⟩, rfl⟩
  refine List.mem_of_getElem? (i := i) ?_
  rw [List.getElem?_zip_eq_some]
  exact ⟨hrecord, hc⟩

/-- The law, where the naming of the clusters succeeds. -/
theorem Named.lawful {clusterOf unnamed : List ℕ} {identityOf : ℕ → Option Identity}
    (h : Named history matcher clusterOf clusterOf identityOf unnamed)
    (hlength : clusterOf.length = history.length) :
    Lawful history matcher clusterOf (history.mapIdx fun i record =>
      assignment record ((identityOf (clusterOf.getD i 0)).getD ("", none))) := by
  -- what is said of a record
  have hget : ∀ (i : ℕ) (record : EmbeddingRecord) (a : RefinedAssignment),
      history[i]? = some record →
        (history.mapIdx fun i record =>
          assignment record ((identityOf (clusterOf.getD i 0)).getD ("", none)))[i]? = some a →
          a = assignment record ((identityOf (clusterOf.getD i 0)).getD ("", none)) := by
    intro i record a hrecord ha
    rw [List.getElem?_mapIdx, hrecord, Option.map_some] at ha
    exact (Option.some.inj ha).symm
  refine ⟨by simp, ?_, ?_, ?_, unnamed, h.order, h.mem_unnamed, ?_⟩
  · intro i record a hrecord ha
    rw [hget i record a hrecord ha, sequenceId_assignment, previousSpeaker_assignment]
    exact ⟨rfl, rfl⟩
  · intro i record a profileId hrecord ha hprofile
    rw [hget i record a hrecord ha, assignment_of_pinned _ hprofile]
    exact ⟨rfl, rfl, rfl⟩
  · intro i j record record' a a' hrecord hrecord' ha ha' hprofile hprofile' hsame
    have hi := assignment_of_unpinned ((identityOf (clusterOf.getD i 0)).getD ("", none)) hprofile
    have hj := assignment_of_unpinned ((identityOf (clusterOf.getD j 0)).getD ("", none)) hprofile'
    rw [hget i record a hrecord ha, hget j record' a' hrecord' ha', hi.1, hi.2, hj.1, hj.2,
      List.getD_eq_getElem?_getD, hsame, List.getD_eq_getElem?_getD]
    exact ⟨rfl, rfl⟩
  · intro k c i a hk hc ha
    have hi : i < history.length := by
      rw [← hlength]
      exact (List.getElem?_eq_some_iff.mp hc).1
    have hrecord : history[i]? = some history[i] := List.getElem?_eq_getElem hi
    -- a numbered cluster has no pinned member
    have hunpinned : history[i].voiceProfileId = none := by
      have hnone := pins_of_clusterIdentity ((h.mem_unnamed c).mp (List.mem_of_getElem? hk)).2
      cases hprofile : history[i].voiceProfileId with
      | none => rfl
      | some p =>
        have hmem := mem_pins.mpr ⟨history[i], mem_members hrecord hc, hprofile⟩
        rw [hnone] at hmem
        cases hmem
    have hassigned := assignment_of_unpinned
      ((identityOf (clusterOf.getD i 0)).getD ("", none)) hunpinned
    rw [hget i _ a hrecord ha, hassigned.1, hassigned.2, List.getD_eq_getElem?_getD, hc,
      Option.getD_some, h.numbered k c hk]
    exact ⟨rfl, rfl⟩

/-- Every cluster can be named: no average runs out of bounds. -/
def InBounds (history : List EmbeddingRecord) (threshold : Float32)
    (matcher : Option SpeakerProfileMatcher) : Prop :=
  ∀ c ∈ clustersOf history threshold,
    Nameable (members history (clustersOf history threshold) c) matcher

/-- **What a refinement says.** Where no average runs out of bounds, a refinement returns and keeps
to the law. -/
theorem refine_lawful (h : InBounds history threshold matcher) :
    ∃ assignments, refine history threshold matcher = some assignments ∧
      Lawful history matcher (clustersOf history threshold) assignments := by
  have hnil := named_nil history matcher (clustersOf history threshold)
  obtain ⟨identityOf, unnamed, hidentities, hnamed⟩ := hnil.identities h
  rw [List.nil_append] at hnamed
  refine ⟨_, ?_, hnamed.lawful (length_clustersOf history threshold)⟩
  rw [refine_eq]
  rw [List.length_nil, Nat.zero_add] at hidentities
  rw [hidentities, Option.map_some]

/-- Where one does, it does not return. -/
theorem refine_eq_none (h : ¬InBounds history threshold matcher) :
    refine history threshold matcher = none := by
  obtain ⟨c, hc, hnot⟩ : ∃ c ∈ clustersOf history threshold,
      ¬Nameable (members history (clustersOf history threshold) c) matcher := by
    simpa [InBounds] using h
  have hnil := named_nil history matcher (clustersOf history threshold)
  have hnone := hnil.identities_eq_none ⟨c, hc, List.not_mem_nil, hnot⟩
  rw [List.length_nil, Nat.zero_add] at hnone
  rw [refine_eq, hnone, Option.map_none]

/-- Embeddings of one length are in bounds. -/
theorem inBounds_of_length {n : ℕ} (h : ∀ record ∈ history, record.embedding.length = n) :
    InBounds history threshold matcher := by
  have hmem : ∀ c record, record ∈ members history (clustersOf history threshold) c →
      record ∈ history := by
    intro c record hrecord
    obtain ⟨entry, hentry, rfl⟩ := List.mem_map.mp hrecord
    exact (List.of_mem_zip (List.mem_filter.mp hentry).1).1
  intro c _
  refine .inr (.inr fun first hfirst record hrecord => ?_)
  rw [h record (hmem c record hrecord), h first (hmem c first (List.mem_of_head? hfirst))]

/-- A matcher without a profile that matches. -/
def noMatch : SpeakerProfileMatcher := ⟨fun _ _ _ => [], fun _ => none, 0.6⟩

/-- A pinned record, one of the same voice, and one of another. -/
def voices : List EmbeddingRecord :=
  [⟨1, [1, 0], some "profile-1", "John"⟩, ⟨2, [1, 0], none, "Speaker 1"⟩,
    ⟨3, [0, 1], none, "Speaker 2"⟩]

theorem refine_lawful_voices :
    ∃ assignments, refine voices 0.55 (some noMatch) = some assignments ∧
      Lawful voices (some noMatch) (clustersOf voices 0.55) assignments :=
  refine_lawful (inBounds_of_length (n := 2) (by simp [voices]))

/-- Two records of one voice, the second with a longer embedding. -/
def uneven : List EmbeddingRecord :=
  [⟨1, [1], none, "Speaker 1"⟩, ⟨2, [1, 0], none, "Speaker 1"⟩]

/-- Their average runs out of bounds. -/
theorem not_refine_uneven :
    ¬∀ (history : List EmbeddingRecord) (threshold : Float32)
      (matcher : Option SpeakerProfileMatcher),
      ∃ assignments, refine history threshold matcher = some assignments ∧
        Lawful history matcher (clustersOf history threshold) assignments := by
  intro h
  have hclusters : clustersOf uneven 0.55 = [0, 0] := by decide +kernel
  have hnot : ¬InBounds uneven 0.55 (some noMatch) := by
    intro hin
    have hmembers := hin 0 (by simp [hclusters])
    rw [hclusters] at hmembers
    simp [Nameable, members, uneven, pins, Averageable] at hmembers
  obtain ⟨assignments, hrefine, -⟩ := h uneven 0.55 (some noMatch)
  rw [refine_eq_none hnot] at hrefine
  cases hrefine

end Refining

end Refinement

end MeetilyLocal
