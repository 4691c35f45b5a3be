import Lexiquery.Proofs.Query.Selecting

/-! The filters for the records that stand in a relation to a given one, and how they belong
together. -/

namespace Lexiquery

inductive Kin
  | hypernyms
  | hyponyms
  | fullHypernyms
  | fullHyponyms
  | pertainyms
  | antiPertainyms
  | notionMates
  | rhymes

namespace Kin

def kinds : Kin → List Kind
  | hypernyms | hyponyms => [.notion, .word]
  | fullHypernyms | fullHyponyms => [.notion]
  | pertainyms | antiPertainyms | notionMates => [.word]
  | rhymes => [.pronunciation]

/-- The filter for the relatives of a record. A pronunciation without a rhyme has no filter. -/
def filter? : Kin → Entity → Option Filter
  | hypernyms, .notion n => some n.hypernymsFilter
  | hypernyms, .word w => some w.hypernymsFilter
  | hyponyms, .notion n => some n.hyponymsFilter
  | hyponyms, .word w => some w.hyponymsFilter
  | fullHypernyms, .notion n => some n.fullHypernymsFilter
  | fullHyponyms, .notion n => some n.fullHyponymsFilter
  | pertainyms, .word w => some w.pertainymsFilter
  | antiPertainyms, .word w => some w.antiPertainymsFilter
  | notionMates, .word w => some w.notionMatesFilter
  | rhymes, .pronunciation p => p.rhymesFilter
  | _, _ => none

def converse : Kin → Kin
  | hypernyms => hyponyms
  | hyponyms => hypernyms
  | fullHypernyms => fullHyponyms
  | fullHyponyms => fullHypernyms
  | pertainyms => antiPertainyms
  | antiPertainyms => pertainyms
  | notionMates => notionMates
  | rhymes => rhymes

def Includes (store : Store) (order : Kind → Order) (X : Kin) (a b : Entity) : Prop :=
  ∃ f ∈ X.filter? a, store.Lists order f b

end Kin

/-- Either of rhyme and prerhyme is null where the other one is. -/
def Store.Rhymed (store : Store) : Prop :=
  ∀ x ∈ store.records .pronunciation, (x.get "rhyme").isNull = (x.get "prerhyme").isNull

instance (store : Store) : Decidable store.Rhymed :=
  inferInstanceAs (Decidable (∀ x ∈ store.records .pronunciation,
    (x.get "rhyme").isNull = (x.get "prerhyme").isNull))

theorem Word.resolve_notionMatesFilter (w : Word) : w.notionMatesFilter.resolve .word =
    .group .and [Schema.Word.notions.withRelated w.notionId,
      .test Schema.Word.id (.integer .differs w.id)] := rfl

theorem Word.askable_notionMatesFilter (w : Word) : w.notionMatesFilter.Askable .word := by
  refine Filter.askable_and w.resolve_notionMatesFilter ?_ ?_ ?_ ?_ ?_
  · exact List.forall_mem_cons.2 ⟨Filter.wellFormed_idEquals,
      List.forall_mem_singleton.2 (.test rfl)⟩
  · exact List.forall_mem_cons.2 ⟨Filter.overSchema_idEquals,
      List.forall_mem_singleton.2 (.test (Schema.declares_idField .word))⟩
  · exact List.forall_mem_cons.2 ⟨.link .test, List.forall_mem_singleton.2 .test⟩
  · simp [Filter.nodeCount, Filter.nodeCountAll, Relationship.withRelated, Filter.idEquals]
  · exact List.forall_mem_cons.2
      ⟨Filter.brief_idEquals, List.forall_mem_singleton.2 (.test trivial)⟩

namespace Pronunciation

def rhymeTests (p : Pronunciation) (rhyme : String) : List Filter :=
  .test Schema.Pronunciation.rhyme (.string .equals rhyme) ::
    .test Schema.Pronunciation.id (.integer .differs p.id) ::
      (p.prerhyme.map fun onset => .test Schema.Pronunciation.prerhyme
        (.string .differs onset)).toList

variable (p : Pronunciation) (rhyme : String)

theorem rhymesFilter_eq : p.rhymesFilter = p.rhyme.map fun s => .group .and (p.rhymeTests s) := by
  unfold rhymesFilter rhymeTests
  cases p.rhyme <;> cases p.prerhyme <;> rfl

theorem forall_rhymeTests {P : Filter → Prop} : (∀ f ∈ p.rhymeTests rhyme, P f) ↔
    P (.test Schema.Pronunciation.rhyme (.string .equals rhyme)) ∧
      P (.test Schema.Pronunciation.id (.integer .differs p.id)) ∧
        ∀ onset ∈ p.prerhyme, P (.test Schema.Pronunciation.prerhyme (.string .differs onset)) := by
  unfold rhymeTests
  cases p.prerhyme <;> simp

theorem resolve_rhymeTests : (Filter.group .and (p.rhymeTests rhyme)).resolve .pronunciation =
    .group .and (p.rhymeTests rhyme) := by
  unfold rhymeTests
  cases p.prerhyme <;> rfl

theorem askable_rhymeTests :
    (Filter.group .and (p.rhymeTests rhyme)).Askable .pronunciation := by
  have declares {f : Field} (h : f ∈ Schema.catalogue.map (·.2)) {t : Test} :
      (Filter.test f t).OverSchema := .test (Schema.declares_of_mem h)
  refine Filter.askable_and (p.resolve_rhymeTests rhyme) ((p.forall_rhymeTests rhyme).2 ?_)
    ((p.forall_rhymeTests rhyme).2 ?_) ((p.forall_rhymeTests rhyme).2 ?_) ?_
    ((p.forall_rhymeTests rhyme).2 ?_)
  · exact ⟨.test rfl, .test rfl, fun _ _ => .test rfl⟩
  · refine ⟨declares ?_, declares ?_, fun _ _ => declares ?_⟩ <;> simp [Schema.catalogue]
  · exact ⟨.test, .test, fun _ _ => .test⟩
  · unfold rhymeTests
    cases p.prerhyme <;> simp [Filter.nodeCount, Filter.nodeCountAll]
  · exact ⟨.test trivial, .test trivial, fun _ _ => .test trivial⟩

end Pronunciation

section

variable {store : Store} (hs : store.Lexical) {order : Kind → Order}
  (ho : ∀ k, (order k).Sorts k) {x : Row}
include hs ho

theorem Store.lists_notionMates {v w : Word} (hx : x ∈ store.records .word)
    (hw : Entity.Shows x (.word w)) : store.Lists order v.notionMatesFilter (.word w) ↔
      (∃ u, store.Concept (.word w) u ∧ store.Concept (.word v) u) ∧ w.id ≠ v.id := by
  have shared : (Schema.Word.notions.withRelated v.notionId).Holds store .word x ↔
      ∃ u, store.Concept (.word w) u ∧ store.Concept (.word v) u := by
    refine (Filter.holds_withRelated_iff hs).trans (exists_congr fun u => ?_)
    rw [relates_notions_iff hs hw]
    exact and_congr_right fun hu => (concept_iff rfl).trans (and_iff_right hu.1) |>.symm
  have other : (Filter.test Schema.Word.id (.integer .differs v.id)).Holds store .word x ↔
      w.id ≠ v.id := Filter.holds_idDiffers hs (k := .word) hw.1
  rw [Store.lists_iff hs ho (e := .word w) v.askable_notionMatesFilter hx hw, Entity.kind,
    v.resolve_notionMatesFilter, Filter.holds_and, List.forall_mem_cons,
    List.forall_mem_singleton, shared, other]

omit ho in
theorem Pronunciation.holds_rhymeTests {p q : Pronunciation} {s : String}
    (hq : Entity.Shows x (.pronunciation q)) :
    (Filter.group .and (p.rhymeTests s)).Holds store .pronunciation x ↔
      q.rhyme = some s ∧ q.id ≠ p.id ∧
        ∀ onset ∈ p.prerhyme, ∃ onset' ∈ q.prerhyme, onset' ≠ onset := by
  have same : (Filter.test Schema.Pronunciation.rhyme (.string .equals s)).Holds store
      .pronunciation x ↔ q.rhyme = some s := by
    refine Iff.trans (Filter.holds_test_of_column hs (a := .text) rfl (by decide +kernel)) ?_
    change Test.Holds .text (x.get "rhyme") _ ↔ _
    rw [hq.2.2.2.1, Test.holds_string_equals_iff]
  have other : (Filter.test Schema.Pronunciation.id (.integer .differs p.id)).Holds store
      .pronunciation x ↔ q.id ≠ p.id := Filter.holds_idDiffers hs (k := .pronunciation) hq.1
  have apart (onset : String) : (Filter.test Schema.Pronunciation.prerhyme
      (.string .differs onset)).Holds store .pronunciation x ↔
        ∃ onset' ∈ q.prerhyme, onset' ≠ onset := by
    refine Iff.trans (Filter.holds_test_of_column hs (a := .text) rfl (by decide +kernel)) ?_
    change Test.Holds .text (x.get "prerhyme") _ ↔ _
    rw [hq.2.2.1, Test.holds_string_differs_iff]
  rw [Filter.holds_and, p.forall_rhymeTests, same, other]
  simp only [apart]

theorem Store.lists_rhymeTests {p q : Pronunciation} {s : String}
    (hx : x ∈ store.records .pronunciation) (hq : Entity.Shows x (.pronunciation q)) :
    store.Lists order (.group .and (p.rhymeTests s)) (.pronunciation q) ↔
      q.rhyme = some s ∧ q.id ≠ p.id ∧
        ∀ onset ∈ p.prerhyme, ∃ onset' ∈ q.prerhyme, onset' ≠ onset := by
  rw [Store.lists_iff hs ho (e := .pronunciation q) (p.askable_rhymeTests s) hx hq, Entity.kind,
    p.resolve_rhymeTests, Pronunciation.holds_rhymeTests hs hq]

end

namespace Kin

theorem includes_iff {store : Store} {order : Kind → Order} {X : Kin} {a b : Entity}
    {f : Filter} (h : X.filter? a = some f) :
    X.Includes store order a b ↔ store.Lists order f b := by
  simp [Includes, h]

theorem filter?_hops {a : Entity} (ha : a.kind ∈ [Kind.notion, .word]) : ∃ id,
    a.notionId? = some id ∧
      hypernyms.filter? a = some (Schema.Notion.hyponyms.withRelated id) ∧
        hyponyms.filter? a = some (Schema.Notion.hypernyms.withRelated id) := by
  cases a with
  | notion n => exact ⟨_, rfl, rfl, rfl⟩
  | word w => exact ⟨_, rfl, rfl, rfl⟩
  | _ => simp [Entity.kind] at ha

theorem askable_filter? {X : Kin} {a : Entity} {f : Filter} {k : Kind}
    (hf : X.filter? a = some f) (hk : k ∈ X.kinds) : f.Askable k := by
  have link {r : Relationship} {t : LinkTest} {id : Int64} (ht : (Comparison.link t).accepts r)
      (hr : r.field ∈ Schema.catalogue.map (·.2)) :
      (Filter.link r t (.idEquals r.far id)).Askable k :=
    Filter.askable_link_idEquals (Schema.declares_of_mem hr) ht
  cases X with
  | rhymes =>
    obtain rfl : k = .pronunciation := by simpa [kinds] using hk
    cases a with
    | pronunciation p =>
      obtain ⟨s, -, rfl⟩ := Option.map_eq_some_iff.1 (p.rhymesFilter_eq.symm.trans hf)
      exact p.askable_rhymeTests s
    | _ => cases hf
  | notionMates =>
    obtain rfl : k = .word := by simpa [kinds] using hk
    cases a with
    | word w =>
      cases hf
      exact w.askable_notionMatesFilter
    | _ => cases hf
  | _ => cases a <;> cases hf <;> exact link rfl (by simp [Schema.catalogue])

theorem declares {r : Relationship} (h : r ∈ [Schema.Notion.hypernyms, Schema.Notion.hyponyms,
    Schema.Notion.fullHypernyms, Schema.Notion.fullHyponyms, Schema.Word.pertainyms,
    Schema.Word.antiPertainyms]) : Schema.Declares r.field := by
  refine Schema.declares_of_mem ?_
  simp only [List.mem_cons, List.not_mem_nil, or_false] at h
  obtain rfl | rfl | rfl | rfl | rfl | rfl := h <;> simp [Schema.catalogue]

theorem exists_filters {X Y : Kin}
    (h : (X, Y) ∈ [(hypernyms, fullHypernyms), (hyponyms, fullHyponyms)]) : ∃ table near far,
      Schema.Declares (Schema.Notion.related table near far).field ∧
      Schema.Declares (Schema.Notion.full table near far).field ∧ ∀ n : Notion,
        X.filter? (.notion n) = some ((Schema.Notion.related table near far).withRelated n.id) ∧
        Y.filter? (.notion n) = some (n.reaching table near far) := by
  simp only [List.mem_cons, Prod.mk.injEq, List.not_mem_nil, or_false] at h
  obtain ⟨rfl, rfl⟩ | ⟨rfl, rfl⟩ := h
  · exact ⟨_, _, _, declares (r := Schema.Notion.hyponyms) (by simp),
      declares (r := Schema.Notion.fullHyponyms) (by simp), fun n => ⟨rfl, rfl⟩⟩
  · exact ⟨_, _, _, declares (r := Schema.Notion.hypernyms) (by simp),
      declares (r := Schema.Notion.fullHypernyms) (by simp), fun n => ⟨rfl, rfl⟩⟩

section

variable {store : Store} (hs : store.Lexical) {order : Kind → Order}
  (ho : ∀ k, (order k).Sorts k) {a b : Entity}
include hs ho

theorem includes_hypernyms_iff (ha : store.Has a) (hb : store.Has b)
    (hka : a.kind ∈ [Kind.notion, .word]) (hkb : b.kind ∈ [Kind.notion, .word]) :
    hypernyms.Includes store order a b ↔ hyponyms.Includes store order b a := by
  obtain ⟨x, hx, hax⟩ := Store.has_iff.1 ha
  obtain ⟨y, hy, hby⟩ := Store.has_iff.1 hb
  obtain ⟨m, hm, above, -⟩ := filter?_hops hka
  obtain ⟨n, hn, -, below⟩ := filter?_hops hkb
  have up := declares (r := Schema.Notion.hyponyms) (by simp)
  have down := declares (r := Schema.Notion.hypernyms) (by simp)
  rw [includes_iff above, includes_iff below]
  refine (Store.lists_hop hs hy hby hkb ho up hm).trans
    (Iff.trans ?_ (Store.lists_hop hs hx hax hka ho down hn).symm)
  rw [exists_comm]
  refine exists_congr fun v => exists_congr fun u => ?_
  rw [and_left_comm]
  refine and_congr_right fun hv => and_congr_right fun hu => ?_
  exact Relationship.relates_self_iff hu.1 hv.1

theorem includes_fullHypernyms_iff {m n : Notion} (hm : store.Has (.notion m))
    (hn : store.Has (.notion n)) : fullHypernyms.Includes store order (.notion m) (.notion n) ↔
      fullHyponyms.Includes store order (.notion n) (.notion m) := by
  obtain ⟨x, hx, hmx⟩ := Store.has_iff.1 hm
  obtain ⟨y, hy, hny⟩ := Store.has_iff.1 hn
  have up := declares (r := Schema.Notion.fullHyponyms) (by simp)
  have down := declares (r := Schema.Notion.fullHypernyms) (by simp)
  rw [includes_iff (f := m.fullHypernymsFilter) rfl, includes_iff (f := n.fullHyponymsFilter) rfl]
  exact (Store.lists_reaches hs ho up hy hny rfl hx hmx.1 rfl).trans <|
    (Relationship.reaches_self_iff hy hx).trans
      (Store.lists_reaches hs ho down hx hmx rfl hy hny.1 rfl).symm

theorem includes_pertainyms_iff {v w : Word} (hv : store.Has (.word v))
    (hw : store.Has (.word w)) : pertainyms.Includes store order (.word v) (.word w) ↔
      antiPertainyms.Includes store order (.word w) (.word v) := by
  obtain ⟨x, hx, hvx⟩ := Store.has_iff.1 hv
  obtain ⟨y, hy, hwy⟩ := Store.has_iff.1 hw
  have up := declares (r := Schema.Word.antiPertainyms) (by simp)
  have down := declares (r := Schema.Word.pertainyms) (by simp)
  rw [includes_iff (f := v.pertainymsFilter) rfl, includes_iff (f := w.antiPertainymsFilter) rfl]
  exact (Store.lists_withRelated hs ho up hy hwy rfl hx hvx.1).trans <|
    (Relationship.relates_self_iff hy hx).trans
      (Store.lists_withRelated hs ho down hx hvx rfl hy hwy.1).symm

theorem includes_notionMates_iff {v w : Word} (hw : store.Has (.word w)) :
    notionMates.Includes store order (.word v) (.word w) ↔
      (∃ u, store.Concept (.word w) u ∧ store.Concept (.word v) u) ∧ w.id ≠ v.id := by
  obtain ⟨x, hx, hwx⟩ := Store.has_iff.1 hw
  rw [includes_iff (f := v.notionMatesFilter) rfl]
  exact Store.lists_notionMates hs ho hx hwx

theorem includes_rhymes_iff (hr : store.Rhymed) {p q : Pronunciation}
    (hp : store.Has (.pronunciation p)) (hq : store.Has (.pronunciation q)) :
    rhymes.Includes store order (.pronunciation p) (.pronunciation q) ↔
      (∃ s, p.rhyme = some s ∧ q.rhyme = some s) ∧ p.id ≠ q.id ∧
        ∃ o o', p.prerhyme = some o ∧ q.prerhyme = some o' ∧ o ≠ o' := by
  obtain ⟨x, hx, hqx⟩ := Store.has_iff.1 hq
  have filters : rhymes.filter? (.pronunciation p) = _ := p.rhymesFilter_eq
  have asks : rhymes.Includes store order (.pronunciation p) (.pronunciation q) ↔
      (∃ s, p.rhyme = some s ∧ q.rhyme = some s) ∧ q.id ≠ p.id ∧
        ∀ onset ∈ p.prerhyme, ∃ onset' ∈ q.prerhyme, onset' ≠ onset := by
    rw [Includes, filters]
    cases p.rhyme <;> simp [Store.lists_rhymeTests hs ho hx hqx]
  rw [asks, ne_comm]
  refine and_congr_right fun ⟨s, hps, _⟩ => and_congr_right fun _ => ?_
  obtain ⟨y, hy, hpy⟩ := Store.has_iff.1 hp
  -- the first one has a rhyme, so it has an onset to go by
  have onset : ∃ o, p.prerhyme = some o := by
    have h := hr y hy
    rw [hpy.2.2.1, hpy.2.2.2.1, hps] at h
    cases hpre : p.prerhyme with
    | none => simp [hpre, Value.ofOption, Value.isNull] at h
    | some o => exact ⟨o, rfl⟩
  obtain ⟨o, ho⟩ := onset
  simp [ho, ne_comm]

theorem includes_converse_iff {X : Kin} (hr : X = rhymes → store.Rhymed) (ha : store.Has a)
    (hb : store.Has b) (hka : a.kind ∈ X.kinds) (hkb : b.kind ∈ X.kinds) :
    X.Includes store order a b ↔ X.converse.Includes store order b a := by
  have notion {e : Entity} (h : e.kind ∈ [Kind.notion]) : ∃ n, e = .notion n := by
    cases e <;> simp_all [Entity.kind]
  have word {e : Entity} (h : e.kind ∈ [Kind.word]) : ∃ w, e = .word w := by
    cases e <;> simp_all [Entity.kind]
  have pronunciation {e : Entity} (h : e.kind ∈ [Kind.pronunciation]) :
      ∃ p, e = .pronunciation p := by
    cases e <;> simp_all [Entity.kind]
  cases X with
  | hypernyms => exact includes_hypernyms_iff hs ho ha hb hka hkb
  | hyponyms => exact (includes_hypernyms_iff hs ho hb ha hkb hka).symm
  | fullHypernyms =>
    obtain ⟨m, rfl⟩ := notion hka
    obtain ⟨n, rfl⟩ := notion hkb
    exact includes_fullHypernyms_iff hs ho ha hb
  | fullHyponyms =>
    obtain ⟨m, rfl⟩ := notion hka
    obtain ⟨n, rfl⟩ := notion hkb
    exact (includes_fullHypernyms_iff hs ho hb ha).symm
  | pertainyms =>
    obtain ⟨v, rfl⟩ := word hka
    obtain ⟨w, rfl⟩ := word hkb
    exact includes_pertainyms_iff hs ho ha hb
  | antiPertainyms =>
    obtain ⟨v, rfl⟩ := word hka
    obtain ⟨w, rfl⟩ := word hkb
    exact (includes_pertainyms_iff hs ho hb ha).symm
  | notionMates =>
    obtain ⟨v, rfl⟩ := word hka
    obtain ⟨w, rfl⟩ := word hkb
    rw [converse, includes_notionMates_iff hs ho hb, includes_notionMates_iff hs ho ha, ne_comm]
    simp only [and_comm]
  | rhymes =>
    obtain ⟨p, rfl⟩ := pronunciation hka
    obtain ⟨q, rfl⟩ := pronunciation hkb
    rw [converse, includes_rhymes_iff hs ho (hr rfl) ha hb,
      includes_rhymes_iff hs ho (hr rfl) hb ha, ne_comm]
    constructor
    all_goals
      rintro ⟨⟨s, hp, hq⟩, hn, o, o', ho, ho', h⟩
      exact ⟨⟨s, hq, hp⟩, hn, o', o, ho', ho, h.symm⟩

/-- The filters for relatives can all be asked. Those of converse sorts select each other's records;
those for any number of hops select the notion itself and what one hop selects, and whatever they
select from what they selected; a word is no mate of its own, and pronunciations that rhyme end in
the same way and begin differently. -/
theorem inclusion_laws :
    (∀ X a k, ∀ f ∈ filter? X a, k ∈ X.kinds → ∃ q rows,
      (Query.prepare store k f (order k) none).result = .ok q ∧ q.statement.run store = .ok rows) ∧
    (∀ X a b, store.Has a → store.Has b → a.kind ∈ X.kinds → b.kind ∈ X.kinds →
      (X = rhymes → store.Rhymed) →
        (X.Includes store order a b ↔ X.converse.Includes store order b a)) ∧
    (∀ X Y, (X, Y) ∈ [(hypernyms, fullHypernyms), (hyponyms, fullHyponyms)] →
      (∀ n, store.Has (.notion n) → Y.Includes store order (.notion n) (.notion n)) ∧
      (∀ n b, store.Has b → X.Includes store order (.notion n) b →
        Y.Includes store order (.notion n) b) ∧
      ∀ m n b, store.Has (.notion m) → store.Has (.notion n) → store.Has b →
        Y.Includes store order (.notion m) (.notion n) →
          Y.Includes store order (.notion n) b → Y.Includes store order (.notion m) b) ∧
    (∀ w, store.Has (.word w) → ¬ notionMates.Includes store order (.word w) (.word w)) ∧
    (store.Rhymed → ∀ p q, store.Has (.pronunciation p) → store.Has (.pronunciation q) →
      (rhymes.Includes store order (.pronunciation p) (.pronunciation q) ↔
        (∃ s, p.rhyme = some s ∧ q.rhyme = some s) ∧ p.id ≠ q.id ∧
          ∃ o o', p.prerhyme = some o ∧ q.prerhyme = some o' ∧ o ≠ o')) := by
  refine ⟨fun X a k f hf hk => ?asked, fun X a b ha hb hka hkb hr =>
    includes_converse_iff hs ho hr ha hb hka hkb, fun X Y h => ?closures,
    fun w hw => ?mates, fun hr p q hp hq => includes_rhymes_iff hs ho hr hp hq⟩
  case asked =>
    obtain ⟨xs, -, queries⟩ := Query.exists_finds hs (askable_filter? hf hk) (ho k)
    obtain ⟨q, hq, -, hg⟩ := queries none
    exact ⟨q, _, hq, hg⟩
  case closures =>
    obtain ⟨table, near, far, hr, hr', filters⟩ := exists_filters h
    have one {n b} : X.Includes store order (.notion n) b ↔ _ := includes_iff (filters n).1
    have all {n b} : Y.Includes store order (.notion n) b ↔ _ := includes_iff (filters n).2
    simp only [one, all]
    exact ⟨fun n => Store.lists_full_self hs ho hr',
      fun n b => Store.lists_full_of_hop hs ho hr' hr,
      fun m n b => Store.lists_full_trans hs ho hr'⟩
  case mates =>
    rw [includes_notionMates_iff hs ho hw]
    exact fun h => h.2 rfl

end

def rhyming : Store :=
  Store.sample.insertAll "pronunciations" <|
    [(1, "K"), (2, "HH")].map fun p => [.integer p.1, .text (p.2 ++ " AE1 T"), .text p.2,
      .text "AE1 T", .integer 1, .text "1"]

theorem rhyming_inclusions :
    let selects := Includes rhyming fun _ => .random
    let concept (id : Int64) : Entity := .notion ⟨id, .noun, none, none⟩
    let sound (id : Int64) (onset : String) : Pronunciation :=
      ⟨id, onset ++ " AE1 T", some onset, some "AE1 T", 1, "1"⟩
    (selects hypernyms (concept 1) (concept 2) ↔ selects hyponyms (concept 2) (concept 1)) ∧
      selects fullHypernyms (concept 1) (concept 1) ∧
      rhyming.Rhymed ∧ selects rhymes (.pronunciation (sound 1 "K")) (.pronunciation (sound 2 "HH"))
      := by
  intro selects concept sound
  have rhymed : rhyming.Rhymed := by decide +kernel
  obtain ⟨-, converse, closures, -, rhymes⟩ :=
    @inclusion_laws rhyming (by decide +kernel) (fun _ => .random) fun _ => ⟨rfl, trivial⟩
  refine ⟨converse hypernyms (concept 1) (concept 2) (by decide +kernel) (by decide +kernel)
    (by decide) (by decide) nofun, ?_, rhymed, ?_⟩
  · exact (closures hypernyms fullHypernyms (by simp)).1 _ (by decide +kernel)
  · refine (rhymes rhymed _ _ (by decide +kernel) (by decide +kernel)).2 ?_
    exact ⟨⟨_, rfl, rfl⟩, by decide, _, _, rfl, rfl, by decide⟩

end Kin

end Lexiquery
