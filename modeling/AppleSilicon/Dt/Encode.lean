import AppleSilicon.Lib.Blob
import AppleSilicon.Dt.Guard
import AppleSilicon.Dt.Lookup

/-!
# Device trees as they are written

A tree of properties, each with its key field, its value and the bytes that fill it up, and the
bytes it is written as.  The bounds that a tree must keep to be written at all (a key field of 32
bytes, values of at most 24 bits of length, counts of 32 bits) are fields of the structures.

* `encodeForest_holds`   the bytes of a tree are a forest of the grammar, and `encodeForest_of` the
                         other way round;
* `encodeForest_inj`     a tree can be told from its bytes, with anything behind them;
* `visits_events`        what the callbacks are shown, read off the memory, is the tree in
                         pre-order;
* `dtCheck_encodes`      `dt_check` accepts exactly the written trees, and `dt_parse` gives them
                         back.
-/

namespace AppleSilicon

/-- a property as it is written -/
structure DtProp where
  key : List UInt8
  /-- the upper byte of the length word, which nobody reads -/
  flags : UInt8
  value : List UInt8
  fill : List UInt8
  key_length : key.length = dtKeyLen
  value_length : value.length < 2^24
  fill_length : value.length + fill.length = padded value.length

namespace DtProp

def lenWord (p : DtProp) : ℕ := p.value.length + 2^24 * p.flags.toNat

def encode (p : DtProp) : List UInt8 := p.key ++ (word32 p.lenWord ++ (p.value ++ p.fill))

theorem lenWord_lt (p : DtProp) : p.lenWord < 2^32 := by
  have h1 := p.value_length
  have h2 := p.flags.toNat_lt
  unfold lenWord
  omega

theorem lenWord_mod (p : DtProp) : p.lenWord % 2^24 = p.value.length := by
  have h := p.value_length
  unfold lenWord
  omega

theorem encode_length (p : DtProp) : p.encode.length = sizeofProp + padded p.value.length := by
  have h1 := p.key_length
  have h2 := p.fill_length
  have hk : dtKeyLen = 32 := rfl
  have hs : sizeofProp = 36 := rfl
  unfold encode
  rw [List.length_append, List.length_append, List.length_append, word32_length]
  omega

/-- a property can be told from its bytes -/
theorem encode_inj (p q : DtProp) (r r' : List UInt8) (h : p.encode ++ r = q.encode ++ r') :
    p = q ∧ r = r' := by
  unfold encode at h
  rw [List.append_assoc, List.append_assoc, List.append_assoc, List.append_assoc,
    List.append_assoc, List.append_assoc] at h
  obtain ⟨hkey, h⟩ := List.append_inj h (p.key_length.trans q.key_length.symm)
  obtain ⟨hword, h⟩ := List.append_inj h rfl
  have hlen := word32_inj _ _ p.lenWord_lt q.lenWord_lt hword
  have hp := p.lenWord_mod
  have hq := q.lenWord_mod
  rw [hlen] at hp
  have hvalues : p.value.length = q.value.length := hp.symm.trans hq
  obtain ⟨hvalue, h⟩ := List.append_inj h hvalues
  have hpf := p.fill_length
  have hqf := q.fill_length
  rw [hvalues] at hpf
  obtain ⟨hfill, hrest⟩ := List.append_inj h (by omega)
  have hflags : p.flags = q.flags := by
    unfold lenWord at hlen
    rw [← UInt8.toNat_inj]
    omega
  refine ⟨?_, hrest⟩
  cases p
  cases q
  rw [mk.injEq]
  exact ⟨hkey, hflags, hvalue, hfill⟩

end DtProp

def encodeProps (ps : List DtProp) : List UInt8 := ps.flatMap DtProp.encode

/-- nodes, one behind the other -/
def encodeForest : Forest (List DtProp) → List UInt8
  | .nil => []
  | .node ps cs sb =>
    (word32 ps.length ++ word32 cs.count) ++
      (encodeProps ps ++ (encodeForest cs ++ encodeForest sb))

/-- every count fits its word -/
def Countable32 : Forest (List DtProp) → Prop
  | .nil => True
  | .node ps cs sb => ps.length < 2^32 ∧ cs.count < 2^32 ∧ Countable32 cs ∧ Countable32 sb

/-- a device tree that can be written -/
structure DtTree where
  props : List DtProp
  children : Forest (List DtProp)
  countable : Countable32 (.node props children .nil)

namespace DtTree

def forest (t : DtTree) : Forest (List DtProp) := .node t.props t.children .nil

def encode (t : DtTree) : List UInt8 := encodeForest t.forest

end DtTree

/-! ## where it lies -/

/-- the properties, written from `a` on -/
def propsAt : ℕ → List DtProp → List PropRec
  | _, [] => []
  | a, p :: ps => ⟨a, p.value.length⟩ :: propsAt (a + p.encode.length) ps

theorem propsAt_length (a : ℕ) (ps : List DtProp) : (propsAt a ps).length = ps.length := by
  induction ps generalizing a with
  | nil => rfl
  | cons p ps ih => rw [propsAt, List.length_cons, ih, List.length_cons]

/-- the nodes, written from `a` on -/
def forestAt : ℕ → Forest (List DtProp) → Forest NodeRec
  | _, .nil => .nil
  | a, .node ps cs sb =>
    .node ⟨a, propsAt (a + sizeofNode) ps⟩
      (forestAt (a + sizeofNode + (encodeProps ps).length) cs)
      (forestAt (a + sizeofNode + (encodeProps ps).length + (encodeForest cs).length) sb)

theorem forestAt_count (a : ℕ) (f : Forest (List DtProp)) : (forestAt a f).count = f.count := by
  induction f generalizing a with
  | nil => rfl
  | node ps cs sb _ ihs => rw [forestAt, Forest.count, ihs, Forest.count]

theorem forestAt_height (a : ℕ) (f : Forest (List DtProp)) : (forestAt a f).height = f.height := by
  induction f generalizing a with
  | nil => rfl
  | node ps cs sb ihc ihs => rw [forestAt, Forest.height, ihc, ihs, Forest.height]

theorem encodeProps_cons (p : DtProp) (ps : List DtProp) :
    encodeProps (p :: ps) = p.encode ++ encodeProps ps := rfl

/-- the four parts of a written node -/
theorem holds_node (mem : Mem) (a : ℕ) (ps : List DtProp) (cs sb : Forest (List DtProp)) :
    mem.Holds a (encodeForest (.node ps cs sb)) ↔
      mem.Holds a (word32 ps.length) ∧ mem.Holds (a + 4) (word32 cs.count) ∧
        mem.Holds (a + sizeofNode) (encodeProps ps) ∧
        mem.Holds (a + sizeofNode + (encodeProps ps).length) (encodeForest cs) ∧
        mem.Holds (a + sizeofNode + (encodeProps ps).length + (encodeForest cs).length)
          (encodeForest sb) := by
  rw [encodeForest, Mem.holds_append, Mem.holds_append, Mem.holds_append, Mem.holds_append,
    and_assoc]
  rfl

theorem encodeForest_node_length (ps : List DtProp) (cs sb : Forest (List DtProp)) :
    (encodeForest (.node ps cs sb)).length = sizeofNode + ((encodeProps ps).length
      + ((encodeForest cs).length + (encodeForest sb).length)) := by
  rw [encodeForest, List.length_append, List.length_append, List.length_append,
    List.length_append]
  rfl

/-! ## written trees are forests of the grammar -/

theorem encodeProps_holds (mem : Mem) (ps : List DtProp) (a : ℕ)
    (h : mem.Holds a (encodeProps ps)) :
    mem.IsProps (propsAt a ps) a (a + (encodeProps ps).length) := by
  induction ps generalizing a with
  | nil => rfl
  | cons p ps ih =>
    rw [encodeProps_cons, Mem.holds_append] at h
    obtain ⟨hp, hps⟩ := h
    unfold DtProp.encode at hp
    rw [Mem.holds_append, Mem.holds_append, p.key_length] at hp
    refine ⟨rfl, ⟨p.lenWord, Mem.le32_word32 _ _ _ p.lenWord_lt hp.2.1, p.lenWord_mod.symm⟩, ?_⟩
    show mem.IsProps _ (a + (sizeofProp + padded p.value.length)) _
    rw [← p.encode_length, encodeProps_cons, List.length_append, ← Nat.add_assoc]
    exact ih _ hps

/-- **a written tree** is a forest of the grammar, where it was written -/
theorem encodeForest_holds (mem : Mem) (f : Forest (List DtProp)) (a : ℕ) (hf : Countable32 f)
    (h : mem.Holds a (encodeForest f)) :
    mem.IsForest (forestAt a f) a (a + (encodeForest f).length) := by
  induction f generalizing a with
  | nil => rfl
  | node ps cs sb ihc ihs =>
    obtain ⟨hps, hcs, hfc, hfs⟩ := hf
    obtain ⟨h1, h2, h3, h4, h5⟩ := (holds_node mem a ps cs sb).mp h
    refine ⟨rfl, ?_, ?_, _, _, encodeProps_holds mem ps _ h3, ihc _ hfc h4, ?_⟩
    · rw [propsAt_length]
      exact Mem.le32_word32 mem a _ hps h1
    · rw [forestAt_count]
      exact Mem.le32_word32 mem _ _ hcs h2
    · rw [encodeForest_node_length, show a + (sizeofNode + ((encodeProps ps).length
          + ((encodeForest cs).length + (encodeForest sb).length)))
        = a + sizeofNode + (encodeProps ps).length + (encodeForest cs).length
          + (encodeForest sb).length by omega]
      exact ihs _ hfs h5

/-! ## forests of the grammar are written trees -/

/-- the property at `a` with the length word `w` -/
def propOf (mem : Mem) (a w : ℕ) : DtProp where
  key := mem.bytesAt a dtKeyLen
  flags := UInt8.ofNat (w / 2^24)
  value := mem.bytesAt (a + sizeofProp) (w % 2^24)
  fill := mem.bytesAt (a + sizeofProp + w % 2^24) (padded (w % 2^24) - w % 2^24)
  key_length := mem.bytesAt_length a dtKeyLen
  value_length := by
    rw [Mem.bytesAt_length]
    exact Nat.mod_lt w (Nat.two_pow_pos 24)
  fill_length := by
    have h := le_padded (w % 2^24)
    rw [Mem.bytesAt_length, Mem.bytesAt_length]
    omega

theorem propOf_value (mem : Mem) (a w : ℕ) : (propOf mem a w).value.length = w % 2^24 :=
  mem.bytesAt_length _ _

theorem propOf_lenWord (mem : Mem) (a w : ℕ) (hw : w < 2^32) : (propOf mem a w).lenWord = w := by
  unfold DtProp.lenWord
  rw [propOf_value]
  show w % 2^24 + 2^24 * (UInt8.ofNat (w / 2^24)).toNat = w
  rw [UInt8.toNat_ofNat']
  omega

theorem propOf_holds (mem : Mem) (a w : ℕ) (hw : mem.le32 (a + dtKeyLen) = some w)
    (hr : mem.Readable a (sizeofProp + padded (w % 2^24))) :
    mem.Holds a (propOf mem a w).encode := by
  have hlt := Mem.le32_lt mem _ w hw
  have hpad := le_padded (w % 2^24)
  have hk : dtKeyLen = 32 := rfl
  have hs : sizeofProp = 36 := rfl
  unfold DtProp.encode
  rw [propOf_lenWord mem a w hlt, Mem.holds_append, Mem.holds_append, Mem.holds_append,
    (propOf mem a w).key_length, word32_length, propOf_value]
  refine ⟨mem.holds_bytesAt _ _ (mem.readable_mono _ _ _ hr (by omega)),
    mem.holds_word32 _ _ hw, ?_, ?_⟩
  · exact mem.holds_bytesAt _ _ (mem.readable_sub a _ sizeofProp _ hr (by omega))
  · have h := mem.readable_sub a _ (sizeofProp + w % 2^24) (padded (w % 2^24) - w % 2^24) hr
      (by omega)
    rw [← Nat.add_assoc] at h
    exact mem.holds_bytesAt _ _ h

theorem encodeProps_of (mem : Mem) (ps : List PropRec) (a b : ℕ) (h : mem.IsProps ps a b)
    (hr : mem.Readable a (b - a)) :
    ∃ qs, propsAt a qs = ps ∧ mem.Holds a (encodeProps qs) ∧ b = a + (encodeProps qs).length := by
  induction ps generalizing a with
  | nil => exact ⟨[], rfl, mem.holds_nil a, h⟩
  | cons p ps ih =>
    obtain ⟨hk, ⟨w, hw, hl⟩, hrest⟩ := h
    have hle := (Mem.isProps_in mem ps _ _ hrest).1
    have hstop : p.stop = a + (sizeofProp + padded (w % 2^24)) := by
      rw [PropRec.stop, hk, hl]
    have hlen : (propOf mem a w).encode.length = sizeofProp + padded (w % 2^24) := by
      rw [DtProp.encode_length, propOf_value]
    have hr2 := mem.readable_sub a (b - a) (sizeofProp + padded (w % 2^24)) (b - p.stop) hr
      (by omega)
    rw [← hstop] at hr2
    obtain ⟨qs, e1, h2, e3⟩ := ih p.stop hrest hr2
    refine ⟨propOf mem a w :: qs, ?_, ?_, ?_⟩
    · rw [propsAt, hlen, ← hstop, e1, propOf_value, ← hl, ← hk]
    · rw [encodeProps_cons, Mem.holds_append, hlen, ← hstop]
      exact ⟨propOf_holds mem a w hw (mem.readable_mono a _ _ hr (by omega)), h2⟩
    · rw [encodeProps_cons, List.length_append, hlen, ← Nat.add_assoc, ← hstop]
      exact e3

/-- **a forest of the grammar** is a written tree -/
theorem encodeForest_of (mem : Mem) (g : Forest NodeRec) (a b : ℕ) (h : mem.IsForest g a b)
    (hr : mem.Readable a (b - a)) :
    ∃ f, Countable32 f ∧ forestAt a f = g ∧ mem.Holds a (encodeForest f) ∧
      b = a + (encodeForest f).length := by
  induction g generalizing a b with
  | nil => exact ⟨.nil, trivial, rfl, mem.holds_nil a, h⟩
  | node n cs sb ihc ihs =>
    obtain ⟨ha, h1, h2, m₁, m₂, hp, hc, hs⟩ := h
    have hpl := (Mem.isProps_in mem n.props _ _ hp).1
    have hcl := Mem.isForest_le mem cs m₁ m₂ hc
    have hsl := Mem.isForest_le mem sb m₂ b hs
    have hr1 := mem.readable_sub a (b - a) sizeofNode (m₁ - (a + sizeofNode)) hr (by omega)
    have hr2 := mem.readable_sub a (b - a) (m₁ - a) (m₂ - m₁) hr (by omega)
    have hr3 := mem.readable_sub a (b - a) (m₂ - a) (b - m₂) hr (by omega)
    rw [show a + (m₁ - a) = m₁ by omega] at hr2
    rw [show a + (m₂ - a) = m₂ by omega] at hr3
    obtain ⟨ps, ep, hps, e1⟩ := encodeProps_of mem n.props _ m₁ hp hr1
    obtain ⟨fc, kc, ec, hfc, e2⟩ := ihc m₁ m₂ hc hr2
    obtain ⟨fs, ks, es, hfs, e3⟩ := ihs m₂ b hs hr3
    have hpn : n.props.length = ps.length := by rw [← ep, propsAt_length]
    have hcn : cs.count = fc.count := by rw [← ec, forestAt_count]
    rw [hpn] at h1
    rw [hcn] at h2
    rw [e1] at hfc ec e2
    rw [e2] at hfs es e3
    refine ⟨.node ps fc fs, ⟨Mem.le32_lt mem _ _ h1, Mem.le32_lt mem _ _ h2, kc, ks⟩, ?_, ?_, ?_⟩
    · rw [forestAt, ep, ec, es, ← ha]
    · rw [holds_node]
      exact ⟨mem.holds_word32 a _ h1, mem.holds_word32 _ _ h2, hps, hfc, hfs⟩
    · rw [e3, encodeForest_node_length]
      omega

/-! ## a tree can be told from its bytes -/

theorem encodeProps_inj (ps qs : List DtProp) (r r' : List UInt8) (hl : ps.length = qs.length)
    (h : encodeProps ps ++ r = encodeProps qs ++ r') : ps = qs ∧ r = r' := by
  induction ps generalizing qs with
  | nil =>
    cases qs with
    | nil => exact ⟨rfl, h⟩
    | cons q qs => cases hl
  | cons p ps ih =>
    cases qs with
    | nil => cases hl
    | cons q qs =>
      rw [encodeProps_cons, encodeProps_cons, List.append_assoc, List.append_assoc] at h
      obtain ⟨e1, h⟩ := DtProp.encode_inj p q _ _ h
      obtain ⟨e2, h⟩ := ih qs (Nat.succ.inj hl) h
      exact ⟨by rw [e1, e2], h⟩

theorem encodeForest_inj (f g : Forest (List DtProp)) (r r' : List UInt8) (hf : Countable32 f)
    (hg : Countable32 g) (hn : f.count = g.count)
    (h : encodeForest f ++ r = encodeForest g ++ r') : f = g ∧ r = r' := by
  induction f generalizing g r r' with
  | nil =>
    cases g with
    | nil => exact ⟨rfl, h⟩
    | node _ _ _ => cases hn
  | node ps cs sb ihc ihs =>
    cases g with
    | nil => cases hn
    | node qs ds tb =>
      obtain ⟨f1, f2, f3, f4⟩ := hf
      obtain ⟨g1, g2, g3, g4⟩ := hg
      rw [encodeForest, encodeForest] at h
      simp only [List.append_assoc] at h
      obtain ⟨e1, h⟩ := List.append_inj h rfl
      obtain ⟨e2, h⟩ := List.append_inj h rfl
      obtain ⟨ep, h⟩ := encodeProps_inj ps qs _ _ (word32_inj _ _ f1 g1 e1) h
      obtain ⟨ec, h⟩ := ihc ds _ _ f3 g3 (word32_inj _ _ f2 g2 e2) h
      obtain ⟨es, h⟩ := ihs tb r r' f4 g4 (Nat.succ.inj hn) h
      exact ⟨by rw [ep, ec, es], h⟩

/-! ## what the callbacks are shown -/

/-- a visit with the key and the value themselves instead of their addresses -/
inductive DtEvent where
  | node (depth : Int)
  | prop (depth : Int) (key value : List UInt8)

/-- a visit, read off the memory -/
def readVisit (mem : Mem) : Visit → DtEvent
  | .node _ d => .node d
  | .prop _ d key val len => .prop d (mem.bytesAt key dtKeyLen) (mem.bytesAt val len)

def nodeEvents (d : ℕ) (ps : List DtProp) : List DtEvent :=
  .node d :: ps.map fun p => .prop d p.key p.value

/-- the tree in pre-order, its roots on level `d` -/
def events (d : ℕ) (f : Forest (List DtProp)) : List DtEvent :=
  (f.pre d).flatMap fun x => nodeEvents x.1 x.2

theorem events_node (d : ℕ) (ps : List DtProp) (cs sb : Forest (List DtProp)) :
    events d (.node ps cs sb) = nodeEvents d ps ++ (events (d + 1) cs ++ events d sb) := by
  show nodeEvents d ps ++ ((cs.pre (d + 1) ++ sb.pre d).flatMap _) = _
  rw [List.flatMap_append]
  rfl

theorem propVisits_events (mem : Mem) (node : ℕ) (d : Int) (ps : List DtProp) (a : ℕ)
    (h : mem.Holds a (encodeProps ps)) :
    (propVisits node d (propsAt a ps)).map (readVisit mem)
      = ps.map fun p => .prop d p.key p.value := by
  induction ps generalizing a with
  | nil => rfl
  | cons p ps ih =>
    rw [encodeProps_cons, Mem.holds_append] at h
    obtain ⟨hp, hps⟩ := h
    unfold DtProp.encode at hp
    rw [Mem.holds_append, Mem.holds_append, Mem.holds_append, p.key_length, word32_length] at hp
    obtain ⟨hkey, _, hval, _⟩ := hp
    have ek := mem.bytesAt_of_holds _ _ hkey
    have ev := mem.bytesAt_of_holds _ _ hval
    rw [p.key_length] at ek
    rw [show a + dtKeyLen + 4 = a + sizeofProp from rfl] at ev
    show .prop d (mem.bytesAt a dtKeyLen) (mem.bytesAt (a + sizeofProp) p.value.length)
      :: (propVisits node d (propsAt (a + p.encode.length) ps)).map (readVisit mem) = _
    rw [ek, ev, ih _ hps, List.map_cons]

theorem visits_events (mem : Mem) (f : Forest (List DtProp)) (d a : ℕ)
    (h : mem.Holds a (encodeForest f)) :
    (visits d (forestAt a f)).map (readVisit mem) = events d f := by
  induction f generalizing d a with
  | nil => rfl
  | node ps cs sb ihc ihs =>
    obtain ⟨_, _, h3, h4, h5⟩ := (holds_node mem a ps cs sb).mp h
    rw [forestAt, visits_node, List.map_append, List.map_append, ihc _ _ h4, ihs _ _ h5,
      events_node]
    unfold nodeVisits nodeEvents
    rw [List.map_cons, propVisits_events mem _ _ ps _ h3]
    rfl

/-! ## the round trip -/

theorem DtTree.encode_isNode (mem : Mem) (t : DtTree) (a : ℕ) (h : mem.Holds a t.encode) :
    mem.IsNode ⟨a, propsAt (a + sizeofNode) t.props⟩
      (forestAt (a + sizeofNode + (encodeProps t.props).length) t.children) a
      (a + t.encode.length) :=
  encodeForest_holds mem t.forest a t.countable h

theorem DtTree.forest_inj (t t' : DtTree) (h : t.forest = t'.forest) : t = t' := by
  obtain ⟨hp, hc, _⟩ := Forest.node.inj h
  cases t
  cases t'
  cases hp
  cases hc
  rfl

/-- two trees written at one address are the same -/
theorem DtTree.held_unique (mem : Mem) (t t' : DtTree) (a : ℕ) (h : mem.Holds a t.encode)
    (h' : mem.Holds a t'.encode) : t' = t := by
  obtain ⟨r, r', hj⟩ := h'.joined h
  exact DtTree.forest_inj _ _
    (encodeForest_inj t'.forest t.forest r r' t'.countable t.countable rfl hj).1

/-- **Accepted blobs are exactly the written trees.**  On readable bytes `dt_check` returns 0 if
and only if a tree is written there and fits; then it stores the length of the tree, no other tree
is written there, and `dt_parse` with callbacks that do not stop shows them the tree in
pre-order, keys and values as they were written. -/
theorem dtCheck_encodes {σ : Type*} (mem : Mem) (base size : ℕ) (hr : mem.Readable base size) :
    ∃ out, dtCheck mem base size = some out ∧
      (out.ret = 0 ↔ ∃ t : DtTree, t.encode.length ≤ size ∧ mem.Holds base t.encode) ∧
      ∀ t : DtTree, t.encode.length ≤ size → mem.Holds base t.encode →
        out.offp = some t.encode.length ∧ (∀ t', mem.Holds base t'.encode → t' = t) ∧
        (t.children.height < 2^31 → ∀ (cbs : Callbacks σ) (s : σ) (fuel : ℕ), cbs.NeverStop →
          t.children.height < fuel → ∃ res, dtParse mem cbs fuel base 0 s = some res ∧
            res.ret = 0 ∧ res.offp = some t.encode.length ∧
            res.log.map (readVisit mem) = events 0 t.forest) := by
  obtain ⟨out, hout, _⟩ := dtCheck_total mem base size hr
  refine ⟨out, hout, ⟨?_, ?_⟩, ?_⟩
  · intro h0
    obtain ⟨n, cs, b, hn, hb, _⟩ := dtCheck_node mem base size out hr hout h0
    have hread := dtCheck_readable mem base size out hr hout h0 n cs b hn
    obtain ⟨f, hf, hat, hheld, hlen⟩ := encodeForest_of mem _ base b hn hread
    cases f with
    | nil => cases hat
    | node ps fc fs =>
      rw [forestAt] at hat
      obtain ⟨_, _, hsib⟩ := Forest.node.inj hat
      cases fs with
      | nil =>
        have hfit : (encodeForest (.node ps fc .nil)).length ≤ size := by omega
        exact ⟨⟨ps, fc, hf⟩, hfit, hheld⟩
      | node _ _ _ => cases hsib
  · intro ⟨t, hfit, hheld⟩
    have h := dtCheck_complete mem _ _ base _ size (t.encode_isNode mem base hheld) (by omega)
    rw [hout] at h
    rw [Option.some.inj h]
  · intro t hfit hheld
    have hnode := t.encode_isNode mem base hheld
    have h := dtCheck_complete mem _ _ base _ size hnode (by omega)
    rw [hout, Nat.add_sub_cancel_left] at h
    refine ⟨by rw [Option.some.inj h], fun t' h' => t.held_unique mem t' base hheld h', ?_⟩
    intro hlevel cbs s fuel hgo hfuel
    have hex := runUntil_exit_none cbs.step s (visits 0 (forestAt base t.forest))
      (fun u v _ => hgo u v)
    have hparse := dtParse_spec mem cbs _ _ fuel base _ 0 s hnode
      (by rw [forestAt_height]; exact hfuel) (fun v hv => by
        have h1 := visits_depth_lt 0 _ v (runUntil_mem cbs.step s _ v hv)
        have h2 := forestAt_height (base + sizeofNode + (encodeProps t.props).length) t.children
        rw [Forest.height, h2, Forest.height] at h1
        omega)
    refine ⟨_, hparse, ?_⟩
    rw [Nat.add_sub_cancel_left]
    show (ParseOut.ofRun t.encode.length
      (runUntil cbs.step s (visits 0 (forestAt base t.forest)))).ret = 0 ∧ _
    rw [show visits 0 (.node ⟨base, propsAt (base + sizeofNode) t.props⟩
        (forestAt (base + sizeofNode + (encodeProps t.props).length) t.children) .nil)
      = visits 0 (forestAt base t.forest) from rfl, ParseOut.ofRun_go _ _ hex,
      runUntil_seen_all _ _ _ hex]
    exact ⟨rfl, rfl, visits_events mem t.forest 0 base hheld⟩

/-- a root with one property and one child -/
def twoNodes : DtTree where
  props := [{
    key := List.replicate 32 0x6e
    flags := 0x80
    value := [1, 2, 3]
    fill := [0]
    key_length := rfl
    value_length := by show 3 < 2^24; omega
    fill_length := rfl }]
  children := .node [] .nil .nil
  countable := by simp [Countable32, Forest.count]

theorem twoNodes_read_back :
    let mem : Mem := fun x => twoNodes.encode[x]?
    (dtCheck mem 0 56).map CheckOut.offp = some (some 56) ∧
      ∃ res, dtParse mem (⟨none, none⟩ : Callbacks Unit) 2 0 0 () = some res ∧
        res.log.map (readVisit mem)
          = [.node 0, .prop 0 (List.replicate 32 0x6e) [1, 2, 3], .node 1] := by
  have hlen : twoNodes.encode.length = 56 := rfl
  have hheld : Mem.Holds (fun x => twoNodes.encode[x]?) 0 twoNodes.encode := by
    intro i _
    dsimp only
    rw [Nat.zero_add]
  have hr := hheld.readable
  rw [hlen] at hr
  obtain ⟨out, hc, _, h⟩ := dtCheck_encodes (σ := Unit) _ 0 56 hr
  obtain ⟨hoff, _, hp⟩ := h twoNodes (le_of_eq hlen) hheld
  obtain ⟨res, e, _, _, hlog⟩ := hp (by show 1 < 2^31; omega) ⟨none, none⟩ () 2
    (fun s v => by cases v <;> rfl) (by show 1 < 2; omega)
  exact ⟨by rw [hc, Option.map_some, hoff, hlen], res, e, hlog⟩

end AppleSilicon
