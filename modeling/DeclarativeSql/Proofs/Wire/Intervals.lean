import DeclarativeSql.Proofs.Calendar.Timestamps
import DeclarativeSql.Proofs.Json.Decoding
import DeclarativeSql.Wire.Interval

/-!
# Intervals read again

An interval is decoded to what it was written from if its timestamps are. What an interval is
decoded from, in any order of its members, is always a value for its unit.
-/

namespace DeclarativeSql

theorem Timestamp.ofNode_ok {node : Node} {time : Timestamp} (h : ofNode node = .ok time) :
    ∃ text, ofText? text = some time := by
  obtain ⟨text, _, h⟩ := bind_ok.mp h
  cases ht : ofText? text with
  | none => simp [ht] at h
  | some other =>
    simp only [ht, pure_ok] at h
    exact ⟨text, h ▸ ht⟩

theorem Timestamp.ReadsBack.ofNode {time : Timestamp} (h : time.ReadsBack) :
    Timestamp.ofNode (.string time.text) = .ok time := by
  rw [ReadsBack] at h
  simp [Timestamp.ofNode, Node.asString, bind, Except.bind, h]

namespace DateRange

structure ReadsBack (range : DateRange) : Prop where
  first : range.first.ReadsBack
  last : range.last.ReadsBack

theorem ReadsBack.ofNode_toJson {range : DateRange} (h : range.ReadsBack) :
    ofNode range.toJson.node = .ok range := by
  have hw : Fields.Written fields (Json.memberNodes
      [("start", .string range.first.text), ("end", .string range.last.text)])
      (range.first, range.last, ()) :=
    .present h.first.ofNode <| .present h.last.ofNode .nil
  rw [ofNode, toJson, Json.node, Fields.decode,
    Fields.ofMembers_of_written hw (by decide) false]
  rfl

theorem ofNode_ok {node : Node} {range : DateRange} (h : ofNode node = .ok range) :
    node.isContainer = true ∧ ∃ first last, Timestamp.ofText? first = some range.first ∧
      Timestamp.ofText? last = some range.last := by
  obtain ⟨⟨first, last, _⟩, hr, h⟩ := bind_ok.mp h
  cases h
  obtain ⟨hc, hfirst, hlast, -⟩ := Fields.decode_ok hr
  obtain hfirst | ⟨_, _, hfirst⟩ := hfirst
  · cases hfirst
  obtain hlast | ⟨_, _, hlast⟩ := hlast
  · cases hlast
  obtain ⟨text, ht⟩ := Timestamp.ofNode_ok hfirst
  obtain ⟨other, ho⟩ := Timestamp.ofNode_ok hlast
  exact ⟨hc, text, other, ht, ho⟩

theorem readsBack_of_ofNode {node : Node} {range : DateRange} (h : ofNode node = .ok range) :
    range.ReadsBack := by
  obtain ⟨-, _, _, hfirst, hlast⟩ := ofNode_ok h
  constructor
  · exact (Timestamp.sound_of_ofText? hfirst).readsBack
  · exact (Timestamp.sound_of_ofText? hlast).readsBack

theorem noDeeper : NoDeeper 0 ofNode toJson := by
  refine ⟨fun {node range limit} hd hw _ => ?_⟩
  obtain ⟨inner, rfl, _⟩ := hw.inside (ofNode_ok hd).1
  rw [toJson, Json.within_object]
  simp

end DateRange

namespace Interval

def ReadsBack : Interval → Prop
  | .days _ => True
  | .range bounds => bounds.ReadsBack

theorem ofNode_unit_value {unit : String} {value : Node} {interval : Interval}
    (hm : unit ∈ units) (hu : ofUnit unit value = .ok interval) :
    ofNode (.object [(some "unit", .string unit), (some "value", value)]) = .ok interval := by
  have hs : (Node.string unit).asVariant units = .ok unit := if_pos hm
  have hunit : takeMember .nothing "unit" (.string unit) = .ok (.unit unit) := by
    rw [takeMember, if_pos rfl, hs]
    rfl
  have hvalue : takeMember (.unit unit) "value" value = .ok (.done interval) := by
    rw [takeMember, if_neg (by decide), if_pos rfl, hu]
    rfl
  simp only [ofNode, takeMembers, hunit, hvalue, bind, Except.bind]
  rfl

theorem ReadsBack.ofNode_toJson {interval : Interval} (h : interval.ReadsBack) :
    ofNode interval.toJson.node = .ok interval := by
  cases interval with
  | days count => exact ofNode_unit_value (by decide) rfl
  | range bounds =>
    refine ofNode_unit_value (by decide) ?_
    rw [ofUnit, if_neg (by decide), DateRange.ReadsBack.ofNode_toJson h]
    rfl

-- ---------------------------------------------------------------------------
-- Members in any order
-- ---------------------------------------------------------------------------

/-- An interval is the value that one of the trees has for some unit. -/
def IsFrom (trees : List Node) (interval : Interval) : Prop :=
  ∃ unit, ∃ tree ∈ trees, ofUnit unit tree = .ok interval

/-- What is known of an interval is known from the trees. -/
def Progress.IsFrom (trees : List Node) : Progress → Prop
  | .nothing | .unit _ => True
  | .value tree => tree ∈ trees
  | .done interval => interval.IsFrom trees

theorem takeMember_isFrom {progress next : Progress} {name : String} {node : Node}
    {trees : List Node} (h : takeMember progress name node = .ok next) (hn : node ∈ trees)
    (hp : progress.IsFrom trees) : next.IsFrom trees := by
  unfold takeMember at h
  split at h
  · cases progress with
    | nothing =>
      obtain ⟨unit, _, h⟩ := bind_ok.mp h
      cases h
      trivial
    | value value =>
      obtain ⟨unit, _, h⟩ := bind_ok.mp h
      obtain ⟨interval, hi, h⟩ := bind_ok.mp h
      cases h
      exact ⟨unit, value, hp, hi⟩
    | unit _ | done _ => cases h
  · split at h
    · cases progress with
      | nothing =>
        obtain ⟨_, _, h⟩ := bind_ok.mp h
        cases h
        exact hn
      | unit unit =>
        obtain ⟨interval, hi, h⟩ := bind_ok.mp h
        cases h
        exact ⟨unit, node, hn, hi⟩
      | value _ | done _ => cases h
    · obtain ⟨_, _, h⟩ := bind_ok.mp h
      cases h
      exact hp

theorem takeMembers_isFrom {members : List Member} {progress last : Progress} {trees : List Node}
    (h : takeMembers progress members = .ok last) (hm : ∀ member ∈ members, member.2 ∈ trees)
    (hp : progress.IsFrom trees) : last.IsFrom trees := by
  induction members generalizing progress with
  | nil =>
    cases h
    exact hp
  | cons member rest ih =>
    obtain ⟨name, node⟩ := member
    obtain ⟨hn, hrest⟩ := List.forall_mem_cons.mp hm
    cases name with
    | none => cases h
    | some name =>
      obtain ⟨next, ht, h⟩ := bind_ok.mp h
      exact ih h hrest (takeMember_isFrom ht hn hp)

theorem ofNode_ok {node : Node} {interval : Interval} (h : ofNode node = .ok interval) :
    node.isContainer = true ∧ interval.IsFrom node.children := by
  unfold ofNode at h
  split at h
  · rename_i members
    obtain ⟨last, hl, h⟩ := bind_ok.mp h
    have hf := takeMembers_isFrom hl (fun _ => List.mem_map_of_mem) trivial
    cases last with
    | done other =>
      cases h
      exact ⟨rfl, hf⟩
    | _ => cases h
  · obtain ⟨unit, _, h⟩ := bind_ok.mp h
    unfold takeItems at h
    split at h
    · cases h
    · obtain ⟨other, hu, h⟩ := bind_ok.mp h
      split at h
      · cases h
        exact ⟨rfl, unit, _, List.mem_cons_of_mem _ List.mem_cons_self, hu⟩
      · cases h
  · cases h

theorem readsBack_of_ofNode {node : Node} {interval : Interval} (h : ofNode node = .ok interval) :
    interval.ReadsBack := by
  obtain ⟨-, unit, tree, _, hu⟩ := ofNode_ok h
  unfold ofUnit at hu
  split at hu
  · obtain ⟨count, _, rfl⟩ := map_ok.mp hu
    trivial
  · obtain ⟨bounds, hb, rfl⟩ := map_ok.mp hu
    exact DateRange.readsBack_of_ofNode hb

theorem noDeeper : NoDeeper 0 ofNode toJson := by
  refine ⟨fun {node interval limit} hd hw _ => ?_⟩
  obtain ⟨hc, unit, tree, ht, hu⟩ := ofNode_ok hd
  obtain ⟨inner, rfl, hi⟩ := hw.inside hc
  unfold ofUnit at hu
  split at hu
  · obtain ⟨count, hn, rfl⟩ := map_ok.mp hu
    cases Node.asNumber_ok.mp hn
    have hw : (Json.number count).node.Within inner := hi _ ht
    rw [toJson, Json.within_object]
    simpa using hw
  · obtain ⟨bounds, hb, rfl⟩ := map_ok.mp hu
    have hw := DateRange.noDeeper.within hb (hi tree ht) (Nat.zero_le _)
    rw [toJson, Json.within_object]
    simpa using hw

end Interval

end DeclarativeSql
