import Reconciler.Yaml.Parse
import Mathlib.Data.Set.Insert

/-!
# Mappings that stand at several places

An alias repeats the node of its anchor, so the nodes of a stream may have one mapping at several
places. Each mapping under an anchor has a number for this. Main statement: whatever is read, the
mappings with one number are one node.

While nodes are read, the set of the numbered mappings that are known grows. A step of reading
accounts for all of them if it leaves none of its own out, so that sequences of steps do so, too.
-/

namespace Reconciler.Yaml

namespace Node

/-- A node stands at some place of another one. -/
inductive IsIn (part : Node) : Node → Prop
  | self : IsIn part part
  | item {tag items node} (mem : node ∈ items) (within : IsIn part node) :
      IsIn part (.sequence tag items)
  | key {tag mark members key value} (mem : (key, value) ∈ members) (within : IsIn part key) :
      IsIn part (.mapping tag mark members)
  | value {tag mark members key value} (mem : (key, value) ∈ members)
      (within : IsIn part value) : IsIn part (.mapping tag mark members)

/-- The number of a mapping. -/
def mark? : Node → Option Nat
  | .mapping _ mark _ => mark
  | _ => none

end Node

/-- All numbered mappings of nodes are in a set. -/
def Knows (known : Set Node) (nodes : List Node) : Prop :=
  ∀ node ∈ nodes, ∀ part mark, part.IsIn node → part.mark? = some mark → part ∈ known

/-- The keys and values of members. -/
def partsOf (members : List (Node × Node)) : List Node :=
  members.flatMap fun member => [member.1, member.2]

variable {known other : Set Node} {given nodes : List Node}

theorem Knows.mono (h : Knows known nodes) (grows : known ⊆ other) : Knows other nodes :=
  fun node hnode part mark within marked => grows (h node hnode part mark within marked)

theorem Knows.subset (h : Knows known nodes) (fewer : given ⊆ nodes) : Knows known given :=
  fun node hnode => h node (fewer hnode)

theorem knows_nil : Knows known [] := nofun

theorem knows_append : Knows known (given ++ nodes) ↔ Knows known given ∧ Knows known nodes :=
  List.forall_mem_append

theorem knows_cons {node : Node} :
    Knows known (node :: nodes) ↔ Knows known [node] ∧ Knows known nodes := by
  rw [← knows_append, List.singleton_append]

theorem knows_scalar (tag : Tag) (text : String) : Knows known [.scalar tag text] := by
  intro node hnode part mark within marked
  obtain rfl := List.mem_singleton.mp hnode
  cases within
  cases marked

theorem knows_sequence {items : List Node} (h : Knows known items) (tag : Tag) :
    Knows known [.sequence tag items] := by
  intro node hnode part mark within marked
  obtain rfl := List.mem_singleton.mp hnode
  cases within with
  | self => cases marked
  | item mem within => exact h _ mem part mark within marked

/-- A mapping is known if its members are and, should it have a number, it itself. -/
theorem knows_mapping {mark : Option Nat} {tag : Tag} {members : List (Node × Node)}
    (h : Knows known (partsOf members))
    (here : mark.isSome → Node.mapping tag mark members ∈ known) :
    Knows known [.mapping tag mark members] := by
  intro node hnode part number within marked
  obtain rfl := List.mem_singleton.mp hnode
  have inside : ∀ member ∈ members, ∀ node ∈ [member.1, member.2], part.IsIn node →
      part ∈ known := fun member hmember node hnode within =>
    h node (List.mem_flatMap.mpr ⟨member, hmember, hnode⟩) part number within marked
  cases within with
  | self => exact here (Option.isSome_of_eq_some marked)
  | key mem within => exact inside _ mem _ (by simp) within
  | value mem within => exact inside _ mem _ (by simp) within

namespace Parser

/-- A set has the numbered mappings that may still be repeated, each under its own number, and
the next number is one that none of them has. -/
structure Accounts (known : Set Node) (s : ParseState) : Prop where
  anchored : ∀ anchor ∈ s.anchors, ∀ node, anchor.2 = some node → Knows known [node]
  numbered : ∀ node ∈ known, ∀ mark, node.mark? = some mark → mark < s.nextMark
  once : ∀ x ∈ known, ∀ y ∈ known, ∀ mark, x.mark? = some mark → y.mark? = some mark → x = y

/-- Once some nodes are known, work leaves a set that accounts for all mappings, among them those
of the nodes in its result. -/
def Keeps (given : List Node) (work : Parser α) (nodes : α → List Node) : Prop :=
  ∀ known s a s', Accounts known s → Knows known given → work s = .ok (a, s') →
    ∃ known', known ⊆ known' ∧ Accounts known' s' ∧ Knows known' (nodes a)

variable {work : Parser α} {next : α → Parser β} {nodes : α → List Node} {later : β → List Node}

theorem bind_apply_eq_ok {s s' : ParseState} {b : β} :
    (work >>= next) s = .ok (b, s') ↔
      ∃ a s₁, work s = .ok (a, s₁) ∧ next a s₁ = .ok (b, s') := by
  change (work s >>= fun (a, s₁) => next a s₁) = _ ↔ _
  rcases work s with _ | ⟨a, s₁⟩
  · exact ⟨nofun, nofun⟩
  · exact ⟨fun h => ⟨a, s₁, rfl, h⟩, fun ⟨_, _, heq, h⟩ => by cases heq; exact h⟩

theorem Keeps.of_nil (h : Keeps [] work nodes) : Keeps given work nodes :=
  fun known s a s' accounts _ run => h known s a s' accounts knows_nil run

theorem keeps_pure {a : α} (h : ∀ known, Knows known given → Knows known (nodes a)) :
    Keeps given (pure a) nodes := by
  intro known s b s' accounts hgiven run
  cases run
  exact ⟨known, subset_rfl, accounts, h known hgiven⟩

/-- A result without nodes. -/
theorem keeps_done {a : α} : Keeps given (pure a) fun _ => [] := keeps_pure fun _ _ => knows_nil

theorem keeps_flawed : Keeps given (flawed : Parser α) nodes :=
  fun _ _ _ _ _ _ run => nomatch run

theorem keeps_bind (h : Keeps given work nodes)
    (hnext : ∀ a, Keeps (nodes a ++ given) (next a) later) : Keeps given (work >>= next) later := by
  intro known s b s' accounts hgiven run
  obtain ⟨a, s₁, first, second⟩ := bind_apply_eq_ok.mp run
  obtain ⟨middle, grows, accounts, hnodes⟩ := h known s a s₁ accounts hgiven first
  obtain ⟨last, growsAgain, accounts, hlater⟩ :=
    hnext a middle s₁ b s' accounts (knows_append.mpr ⟨hnodes, hgiven.mono grows⟩) second
  exact ⟨last, grows.trans growsAgain, accounts, hlater⟩

theorem keeps_flawed_bind : Keeps given (flawed >>= next) later :=
  fun _ _ _ _ _ _ run => nomatch run

/-- Work that touches neither anchors nor numbers. -/
theorem keeps_of_same (h : ∀ {s a s'}, work s = .ok (a, s') →
    s'.anchors = s.anchors ∧ s'.nextMark = s.nextMark) : Keeps given work fun _ => [] := by
  intro known s a s' accounts _ run
  obtain ⟨anchors, nextMark⟩ := h run
  exact ⟨known, subset_rfl,
    ⟨anchors ▸ accounts.anchored, nextMark ▸ accounts.numbered, accounts.once⟩, knows_nil⟩

theorem keeps_get : Keeps given (get : Parser ParseState) fun _ => [] :=
  keeps_of_same fun run => by cases run; exact ⟨rfl, rfl⟩

theorem keeps_modify {f : ParseState → ParseState}
    (h : ∀ s, (f s).anchors = s.anchors ∧ (f s).nextMark = s.nextMark) :
    Keeps given (modify f : Parser PUnit) fun _ => [] :=
  keeps_of_same fun run => by cases run; exact h _

theorem keeps_ite {condition : Prop} [Decidable condition] {one two : Parser α}
    (h : Keeps given one nodes) (h' : Keeps given two nodes) :
    Keeps given (if condition then one else two) nodes := by
  split
  · exact h
  · exact h'

/-! ### Single steps -/

theorem keeps_peek : Keeps given peek fun _ => [] := by
  refine keeps_bind keeps_get fun s => ?_
  split
  · exact keeps_done
  · exact fun _ _ _ _ _ _ run => nomatch run

theorem keeps_advance : Keeps given advance fun _ => [] := keeps_modify fun _ => ⟨rfl, rfl⟩

theorem keeps_require (condition : Bool) : Keeps given (require condition) fun _ => [] := by
  rw [require]
  split
  · exact keeps_done
  · exact keeps_flawed

theorem keeps_bound : Keeps given bound fun _ => [] :=
  keeps_bind keeps_get fun _ => keeps_done

theorem keeps_tagName (tag : TagText) : Keeps given (tagName tag) fun _ => [] := by
  rw [tagName]
  split
  · exact keeps_done
  · refine keeps_bind keeps_get fun s => ?_
    split
    · exact keeps_done
    · exact keeps_flawed

theorem keeps_properties : Keeps given properties fun _ => [] := by
  have named : ∀ {given} (anchor : Option String) (tag : TagText),
      Keeps given (do return (anchor, some (← tagName tag))) fun _ => [] :=
    fun anchor tag => keeps_bind (keeps_tagName tag) fun _ => keeps_done
  refine keeps_bind keeps_peek fun token => ?_
  split
  · refine keeps_bind keeps_advance fun _ => keeps_bind keeps_peek fun token => ?_
    split
    · exact keeps_bind keeps_advance fun _ => named _ _
    · exact keeps_done
  · refine keeps_bind keeps_advance fun _ => keeps_bind keeps_peek fun token => ?_
    split
    · exact keeps_bind keeps_advance fun _ => named _ _
    · exact named _ _
  · exact keeps_done

theorem keeps_beginAnchor (name : String) : Keeps given (beginAnchor name) fun _ => [] := by
  refine keeps_bind keeps_get fun s => keeps_bind (keeps_require _) fun _ => ?_
  intro known s a s' accounts _ run
  cases run
  refine ⟨known, subset_rfl, ⟨fun anchor hanchor node hnode => ?_, accounts.numbered,
    accounts.once⟩, knows_nil⟩
  rcases List.mem_cons.mp hanchor with rfl | hanchor
  · cases hnode
  · exact accounts.anchored anchor hanchor node hnode

theorem keeps_completeAnchor (name : String) {node : Node} (h : node ∈ given) :
    Keeps given (completeAnchor name node) fun _ => [] := by
  intro known s a s' accounts hgiven run
  cases run
  refine ⟨known, subset_rfl, ⟨fun anchor hanchor other hother => ?_, accounts.numbered,
    accounts.once⟩, knows_nil⟩
  rcases List.mem_cons.mp hanchor with rfl | hanchor
  · obtain rfl := Option.some.inj hother
    exact hgiven.subset (by simpa using h)
  · exact accounts.anchored anchor hanchor other hother

/-- The node of an alias is one that is known. -/
theorem keeps_aliased (name : String) : Keeps given (aliased name) fun node => [node] := by
  intro known s node s' accounts _ run
  obtain ⟨state, s₁, got, run⟩ := bind_apply_eq_ok.mp run
  cases got
  rcases hlookup : s.anchors.lookup name with _ | _ | found
  · rw [hlookup] at run
    cases run
  · rw [hlookup] at run
    cases run
  · rw [hlookup] at run
    cases run
    obtain ⟨front, back, heq, -⟩ := List.lookup_eq_some_iff.mp hlookup
    refine ⟨known, subset_rfl, accounts, accounts.anchored (name, some node) ?_ node rfl⟩
    rw [heq]
    simp

/-- A mapping gets its number before its members are read. None of them can have this number, so
the mapping may be taken as known all the while. -/
theorem keeps_mapping (anchored : Bool) (tag : Tag) {members : Parser (List (Node × Node))}
    (h : Keeps given members partsOf) :
    Keeps given (do
      let mark ← newMark anchored
      return .mapping tag mark (← members)) fun node => [node] := by
  intro known s node s' accounts hgiven run
  obtain ⟨mark, s₁, numbering, run⟩ := bind_apply_eq_ok.mp run
  obtain ⟨read, s₂, reading, run⟩ := bind_apply_eq_ok.mp run
  cases run
  cases anchored with
  | false =>
    cases numbering
    obtain ⟨known', grows, accounts, hread⟩ := h known s read _ accounts hgiven reading
    exact ⟨known', grows, accounts, knows_mapping hread nofun⟩
  | true =>
    cases numbering
    have fresh : ∀ other ∈ known, other.mark? ≠ some s.nextMark := fun other hother marked =>
      absurd (accounts.numbered other hother _ marked) (lt_irrefl _)
    have reserved : Accounts (insert (.mapping tag (some s.nextMark) read) known)
        { s with nextMark := s.nextMark + 1 } := by
      refine ⟨fun anchor hanchor other hother => ?_, fun other hother mark marked => ?_,
        fun x hx y hy mark hmark hmark' => ?_⟩
      · exact (accounts.anchored anchor hanchor other hother).mono (Set.subset_insert _ _)
      · rcases hother with rfl | hother
        · cases marked
          exact Nat.lt_succ_self _
        · exact Nat.lt_succ_of_lt (accounts.numbered other hother mark marked)
      · rcases hx with rfl | hx <;> rcases hy with rfl | hy
        · rfl
        · cases hmark
          exact absurd hmark' (fresh y hy)
        · cases hmark'
          exact absurd hmark (fresh x hx)
        · exact accounts.once x hx y hy mark hmark hmark'
    obtain ⟨known', grows, accounts, hread⟩ :=
      h _ _ read _ reserved (hgiven.mono (Set.subset_insert _ _)) reading
    refine ⟨known', (Set.subset_insert _ _).trans grows, accounts, knows_mapping hread fun _ => ?_⟩
    exact grows (Set.mem_insert _ _)

/-! ### Nodes -/

theorem keeps_scalar (tag : Tag) (text : String) :
    Keeps given (pure (.scalar tag text)) fun node => [node] :=
  keeps_pure fun _ _ => knows_scalar tag text

theorem keeps_nothing : Keeps given (pure nothing) fun node => [node] := keeps_scalar _ _

theorem keeps_sequence (tag : Tag) {items : Parser (List Node)} (h : Keeps given items id) :
    Keeps given (do return .sequence tag (← items)) fun node => [node] :=
  keeps_bind h fun _ => keeps_pure fun _ hgiven => knows_sequence (knows_append.mp hgiven).1 tag

/-- The first of some nodes is read, and then the others. -/
theorem keeps_cons {first : Parser Node} {others : Parser (List Node)}
    (h : Keeps given first fun node => [node]) (hothers : Keeps [] others id) :
    Keeps given (do
      let node ← first
      return node :: (← others)) id := by
  refine keeps_bind h fun node => keeps_bind hothers.of_nil fun nodes => keeps_pure ?_
  intro known hgiven
  obtain ⟨hothers, hgiven⟩ := knows_append.mp hgiven
  exact knows_cons.mpr ⟨(knows_append.mp hgiven).1, hothers⟩

/-- A member is read by its key and its value. -/
theorem keeps_member {key value : Parser Node} (hkey : Keeps given key fun node => [node])
    (hvalue : Keeps [] value fun node => [node]) :
    Keeps given (do
      let key ← key
      let value ← value
      return [(key, value)]) partsOf := by
  refine keeps_bind hkey fun key => keeps_bind hvalue.of_nil fun value => keeps_pure ?_
  intro known hgiven
  obtain ⟨hvalue, hgiven⟩ := knows_append.mp hgiven
  exact knows_cons.mpr ⟨(knows_append.mp hgiven).1, hvalue⟩

/-- The first of some members is read, and then the others. -/
theorem keeps_members {key value : Parser Node} {others : Parser (List (Node × Node))}
    (hkey : Keeps given key fun node => [node]) (hvalue : Keeps [] value fun node => [node])
    (hothers : Keeps [] others partsOf) :
    Keeps given (do
      let key ← key
      let value ← value
      return (key, value) :: (← others)) partsOf := by
  refine keeps_bind hkey fun key => keeps_bind hvalue.of_nil fun value =>
    keeps_bind hothers.of_nil fun members => keeps_pure ?_
  intro known hgiven
  obtain ⟨hothers, hgiven⟩ := knows_append.mp hgiven
  obtain ⟨hvalue, hgiven⟩ := knows_append.mp hgiven
  exact knows_cons.mpr ⟨(knows_append.mp hgiven).1, knows_cons.mpr ⟨hvalue, hothers⟩⟩

/-- What reading nodes keeps as long as it has some fuel. -/
structure Reads (fuel : Nat) : Prop where
  node (inBlock unindented anchored : Bool) :
    Keeps [] (node inBlock unindented anchored fuel) fun node => [node]
  content (inBlock unindented anchored : Bool) (tag : Option String) (mayBeMissing : Bool) :
    Keeps [] (content inBlock unindented anchored tag mayBeMissing fuel) fun node => [node]
  blockItems (anchored : Bool) : Keeps [] (blockItems anchored fuel) id
  unindentedItems (anchored : Bool) : Keeps [] (unindentedItems anchored fuel) id
  blockMembers (anchored : Bool) : Keeps [] (blockMembers anchored fuel) partsOf
  blockValue (anchored : Bool) : Keeps [] (blockValue anchored fuel) fun node => [node]
  blockPart (anchored : Bool) : Keeps [] (blockPart anchored fuel) fun node => [node]
  flowItems (anchored first : Bool) : Keeps [] (flowItems anchored first fuel) id
  flowMembers (anchored first : Bool) : Keeps [] (flowMembers anchored first fuel) partsOf
  flowValue (anchored : Bool) : Keeps [] (flowValue anchored fuel) fun node => [node]
  flowPart (anchored : Bool) : Keeps [] (flowPart anchored fuel) fun node => [node]

variable {fuel : Nat}

theorem Reads.node_succ (ih : Reads fuel) (inBlock unindented anchored : Bool) :
    Keeps [] (Parser.node inBlock unindented anchored (fuel + 1)) fun node => [node] := by
  rw [Parser.node]
  refine keeps_bind keeps_peek fun token => ?_
  split
  · exact keeps_bind keeps_advance fun _ => keeps_aliased _
  · refine keeps_bind keeps_properties fun (anchor, tag) => ?_
    cases anchor with
    | none => exact (ih.content _ _ _ _ _).of_nil
    | some name =>
      refine keeps_bind (keeps_beginAnchor _) fun _ =>
        keeps_bind (ih.content _ _ _ _ _).of_nil fun node =>
        keeps_bind (keeps_completeAnchor _ (by simp)) fun _ => keeps_pure ?_
      exact fun known hgiven => hgiven.subset (by simp)

theorem keeps_missing (tag : Option String) (mayBeMissing : Bool) :
    Keeps given (content.missing tag mayBeMissing) fun node => [node] := by
  rw [content.missing]
  split
  · exact keeps_scalar _ _
  · exact keeps_flawed

theorem Reads.content_succ (ih : Reads fuel) (inBlock unindented anchored : Bool)
    (tag : Option String) (mayBeMissing : Bool) :
    Keeps [] (Parser.content inBlock unindented anchored tag mayBeMissing (fuel + 1))
      fun node => [node] := by
  rw [Parser.content]
  refine keeps_bind keeps_peek fun token => ?_
  split
  · split
    · exact keeps_sequence _ (ih.unindentedItems _).of_nil
    · exact keeps_missing _ _
  · exact keeps_bind keeps_advance fun _ => keeps_scalar _ _
  · exact keeps_bind keeps_advance fun _ => keeps_sequence _ (ih.flowItems _ _).of_nil
  · exact keeps_bind keeps_advance fun _ => keeps_mapping _ _ (ih.flowMembers _ _).of_nil
  · split
    · exact keeps_bind keeps_advance fun _ => keeps_sequence _ (ih.blockItems _).of_nil
    · exact keeps_missing _ _
  · split
    · exact keeps_bind keeps_advance fun _ => keeps_mapping _ _ (ih.blockMembers _).of_nil
    · exact keeps_missing _ _
  · exact keeps_missing _ _

theorem Reads.blockItems_succ (ih : Reads fuel) (anchored : Bool) :
    Keeps [] (Parser.blockItems anchored (fuel + 1)) id := by
  rw [Parser.blockItems]
  refine keeps_bind keeps_peek fun token => ?_
  split
  · refine keeps_bind keeps_advance fun _ => keeps_bind keeps_peek fun token => ?_
    dsimp only
    split
    · exact keeps_cons keeps_nothing (ih.blockItems _)
    · exact keeps_cons keeps_nothing (ih.blockItems _)
    · exact keeps_cons (ih.node _ _ _).of_nil (ih.blockItems _)
  · exact keeps_bind keeps_advance fun _ => keeps_pure fun _ _ => knows_nil
  · exact keeps_flawed

theorem Reads.unindentedItems_succ (ih : Reads fuel) (anchored : Bool) :
    Keeps [] (Parser.unindentedItems anchored (fuel + 1)) id := by
  rw [Parser.unindentedItems]
  refine keeps_bind keeps_peek fun token => ?_
  split
  · refine keeps_bind keeps_advance fun _ => keeps_bind keeps_peek fun token => ?_
    dsimp only
    split
    · exact keeps_cons keeps_nothing (ih.unindentedItems _)
    · exact keeps_cons keeps_nothing (ih.unindentedItems _)
    · exact keeps_cons keeps_nothing (ih.unindentedItems _)
    · exact keeps_cons keeps_nothing (ih.unindentedItems _)
    · exact keeps_cons (ih.node _ _ _).of_nil (ih.unindentedItems _)
  · exact keeps_pure fun _ _ => knows_nil

theorem Reads.blockMembers_succ (ih : Reads fuel) (anchored : Bool) :
    Keeps [] (Parser.blockMembers anchored (fuel + 1)) partsOf := by
  rw [Parser.blockMembers]
  refine keeps_bind keeps_peek fun token => ?_
  split
  · refine keeps_bind keeps_advance fun _ => ?_
    exact keeps_members (ih.blockPart _).of_nil (ih.blockValue _) (ih.blockMembers _)
  · exact keeps_bind keeps_advance fun _ => keeps_pure fun _ _ => knows_nil
  · exact keeps_flawed

theorem Reads.blockValue_succ (ih : Reads fuel) (anchored : Bool) :
    Keeps [] (Parser.blockValue anchored (fuel + 1)) fun node => [node] := by
  rw [Parser.blockValue]
  refine keeps_bind keeps_peek fun token => ?_
  split
  · exact keeps_bind keeps_advance fun _ => (ih.blockPart _).of_nil
  · exact keeps_nothing

theorem Reads.blockPart_succ (ih : Reads fuel) (anchored : Bool) :
    Keeps [] (Parser.blockPart anchored (fuel + 1)) fun node => [node] := by
  rw [Parser.blockPart]
  refine keeps_bind keeps_peek fun token => ?_
  split
  · exact keeps_nothing
  · exact keeps_nothing
  · exact keeps_nothing
  · exact (ih.node _ _ _).of_nil

/-- Between two parts of a flow collection there is a comma, and none before the first one. -/
theorem keeps_comma {α : Type} {work : Parser α} {nodes : α → List Node} (first : Bool)
    (h : ∀ {given}, Keeps given work nodes) :
    Keeps given (do
      if !first then
        match ← peek with
        | .flowEntry => advance
        | _ => flawed
      work) nodes := by
  split
  · refine keeps_bind keeps_peek fun token => ?_
    dsimp only
    split
    · exact keeps_bind keeps_advance fun _ => h
    · exact keeps_flawed_bind
  · exact h

/-- A mapping with one member is read, and then what comes after it. -/
theorem keeps_single (anchored : Bool) {key value : Parser Node} {others : Parser (List Node)}
    (hkey : Keeps given key fun node => [node]) (hvalue : Keeps [] value fun node => [node])
    (hothers : Keeps [] others id) :
    Keeps given (do
      let mark ← newMark anchored
      let key ← key
      let value ← value
      return .mapping .mapping mark [(key, value)] :: (← others)) id := by
  have nested := keeps_cons (keeps_mapping anchored .mapping (keeps_member hkey hvalue)) hothers
  simpa only [bind_assoc, pure_bind] using nested

theorem Reads.flowItems_succ (ih : Reads fuel) (anchored first : Bool) :
    Keeps [] (Parser.flowItems anchored first (fuel + 1)) id := by
  rw [Parser.flowItems]
  refine keeps_bind keeps_peek fun token => ?_
  split
  · exact keeps_bind keeps_advance fun _ => keeps_pure fun _ _ => knows_nil
  · refine keeps_comma first fun {given} => keeps_bind keeps_peek fun token => ?_
    split
    · refine keeps_bind keeps_advance fun _ => ?_
      exact keeps_single anchored (ih.flowPart _).of_nil (ih.flowValue _) (ih.flowItems _ _)
    · exact keeps_bind keeps_advance fun _ => keeps_pure fun _ _ => knows_nil
    · exact keeps_cons (ih.node _ _ _).of_nil (ih.flowItems _ _)

theorem Reads.flowMembers_succ (ih : Reads fuel) (anchored first : Bool) :
    Keeps [] (Parser.flowMembers anchored first (fuel + 1)) partsOf := by
  rw [Parser.flowMembers]
  refine keeps_bind keeps_peek fun token => ?_
  split
  · exact keeps_bind keeps_advance fun _ => keeps_pure fun _ _ => knows_nil
  · refine keeps_comma first fun {given} => keeps_bind keeps_peek fun token => ?_
    split
    · refine keeps_bind keeps_advance fun _ => ?_
      exact keeps_members (ih.flowPart _).of_nil (ih.flowValue _) (ih.flowMembers _ _)
    · exact keeps_bind keeps_advance fun _ => keeps_pure fun _ _ => knows_nil
    · have key : Keeps ([] ++ given) (Parser.node false false anchored fuel) fun node => [node] :=
        (ih.node _ _ _).of_nil
      have members := keeps_members key keeps_nothing (ih.flowMembers anchored false)
      simpa only [pure_bind] using members

theorem Reads.flowValue_succ (ih : Reads fuel) (anchored : Bool) :
    Keeps [] (Parser.flowValue anchored (fuel + 1)) fun node => [node] := by
  rw [Parser.flowValue]
  refine keeps_bind keeps_peek fun token => ?_
  split
  · exact keeps_bind keeps_advance fun _ => (ih.flowPart _).of_nil
  · exact keeps_nothing

theorem Reads.flowPart_succ (ih : Reads fuel) (anchored : Bool) :
    Keeps [] (Parser.flowPart anchored (fuel + 1)) fun node => [node] := by
  rw [Parser.flowPart]
  refine keeps_bind keeps_peek fun token => ?_
  split
  · exact keeps_nothing
  · exact keeps_nothing
  · exact keeps_nothing
  · exact keeps_nothing
  · exact (ih.node _ _ _).of_nil

/-- Reading nodes accounts for all mappings, with whatever fuel. -/
theorem reads (fuel : Nat) : Reads fuel := by
  induction fuel with
  | zero =>
    constructor <;> intros <;> exact keeps_flawed
  | succ fuel ih =>
    exact {
      node := ih.node_succ
      content := ih.content_succ
      blockItems := ih.blockItems_succ
      unindentedItems := ih.unindentedItems_succ
      blockMembers := ih.blockMembers_succ
      blockValue := ih.blockValue_succ
      blockPart := ih.blockPart_succ
      flowItems := ih.flowItems_succ
      flowMembers := ih.flowMembers_succ
      flowValue := ih.flowValue_succ
      flowPart := ih.flowPart_succ }

/-! ### Documents -/

theorem keeps_skipEnds (fuel : Nat) : Keeps given (skipEnds fuel) fun _ => [] := by
  induction fuel generalizing given with
  | zero => exact keeps_done
  | succ fuel ih =>
    rw [skipEnds]
    refine keeps_bind keeps_peek fun token => ?_
    split
    · exact keeps_bind keeps_advance fun _ => ih
    · exact keeps_done

theorem keeps_directives (fuel : Nat) (versioned : Bool) :
    Keeps given (directives fuel versioned) fun _ => [] := by
  induction fuel generalizing given versioned with
  | zero => exact keeps_done
  | succ fuel ih =>
    rw [directives]
    refine keeps_bind keeps_peek fun token => ?_
    split
    · refine keeps_bind keeps_advance fun _ => ?_
      split
      · exact keeps_bind (keeps_require _) fun _ => ih _
      · refine keeps_bind keeps_get fun s => keeps_bind (keeps_require _) fun _ => ?_
        exact keeps_bind (keeps_modify fun _ => ⟨rfl, rfl⟩) fun _ => ih _
      · exact ih _
    · exact keeps_done

/-- A document that starts with a mark. -/
theorem keeps_marked : Keeps given (do
    skipEnds (← bound)
    if let .streamEnd ← peek then return none
    directives (← bound) false
    match ← peek with
    | .documentStart => advance
    | _ => flawed
    modify fun s => { s with handles := s.handles ++ commonHandles }
    return some Opening.marked) fun _ => [] := by
  refine keeps_bind keeps_bound fun _ => keeps_bind (keeps_skipEnds _) fun _ =>
    keeps_bind keeps_peek fun token => ?_
  dsimp only
  split
  · exact keeps_done
  · refine keeps_bind keeps_bound fun _ => keeps_bind (keeps_directives _ _) fun _ =>
      keeps_bind keeps_peek fun token => ?_
    have rest : ∀ {given}, Keeps given (do
        modify fun s => { s with handles := s.handles ++ commonHandles }
        return some Opening.marked) fun _ => [] :=
      keeps_bind (keeps_modify fun _ => ⟨rfl, rfl⟩) fun _ => keeps_done
    split
    · exact keeps_bind keeps_advance fun _ => rest
    · exact keeps_flawed_bind

theorem keeps_opening? (first : Bool) : Keeps given (opening? first) fun _ => [] := by
  have unmarked : ∀ {given}, Keeps given (do
      modify fun s => { s with handles := commonHandles }
      return some Opening.unmarked) fun _ => [] :=
    keeps_bind (keeps_modify fun _ => ⟨rfl, rfl⟩) fun _ => keeps_done
  rw [opening?]
  refine keeps_bind (keeps_modify fun _ => ⟨rfl, rfl⟩) fun _ =>
    keeps_bind keeps_peek fun token => ?_
  -- Whatever the token is, one of the two ways to open a document is taken.
  dsimp only
  split <;> exact keeps_bind keeps_done fun _ =>
    keeps_ite unmarked keeps_marked

/-- A document forgets the anchors of those before it. -/
theorem keeps_forget :
    Keeps given (modify fun s => { s with anchors := [] } : Parser PUnit) fun _ => [] := by
  intro known s a s' accounts _ run
  cases run
  exact ⟨known, subset_rfl, ⟨nofun, accounts.numbered, accounts.once⟩, knows_nil⟩

/-- After its root a document may have an end of its own. -/
theorem keeps_ended {work : Parser Node} (h : Keeps given work fun node => [node]) :
    Keeps given (do
      let root ← work
      if let .documentEnd ← peek then advance
      return root) fun node => [node] := by
  refine keeps_bind h fun node => keeps_bind keeps_peek fun token => ?_
  have done : ∀ {given}, node ∈ given → Keeps given (pure node) fun node => [node] :=
    fun hmem => keeps_pure fun _ hgiven => hgiven.subset (by simpa using hmem)
  dsimp only
  split
  · exact keeps_bind keeps_advance fun _ => done (by simp)
  · exact done (by simp)

theorem keeps_root (opening : Opening) : Keeps given (root opening) fun node => [node] := by
  rw [root]
  refine keeps_bind keeps_forget fun _ => keeps_bind keeps_peek fun token => ?_
  -- Whatever the token is, the root is missing or read.
  dsimp only
  split <;> exact keeps_bind keeps_done fun _ =>
    keeps_ite (keeps_ended keeps_nothing) (keeps_bind keeps_bound fun _ =>
      keeps_ended ((reads _).node true false false).of_nil)

theorem keeps_document? (first : Bool) : Keeps given (document? first) Option.toList := by
  refine keeps_bind (keeps_opening? first) fun opening => ?_
  cases opening with
  | none => exact keeps_pure fun _ _ => knows_nil
  | some opening =>
    refine keeps_bind (keeps_root opening) fun node => keeps_pure fun _ hgiven => ?_
    exact (knows_append.mp hgiven).1

end Parser

end Reconciler.Yaml
