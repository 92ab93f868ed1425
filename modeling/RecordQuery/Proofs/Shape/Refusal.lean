import RecordQuery.Proofs.Shape.Parts

/-!
# Why a Value Is Refused

A value that does not have a shape is refused for one reason. An array that is read as a list is
refused for the first of its items that cannot be read. An object that is read as a record is
refused for the first of its members, in its own order, that the record knows and that cannot be
read; only where there is none is it refused for the first member, in the order of the record,
that it lacks and must have. The reason is that of the item or the member, found in the same way,
and every other value is refused as a whole.

## Main results

* `Members.fillAll_eq_error_iff` — the member of an object that cannot be read;
* `Members.close_eq_error_iff` — the member that an object lacks;
* `Shape.decode_eq_error_iff` — reading fails for the reason for which a value is refused.
-/

namespace RecordQuery

/-! ### Members by key -/

namespace Members

/-- The member of a key, if there is one: how it may be absent, and its shape. -/
def find? : Members → String → Option (Presence × Shape)
  | .nil, _ => none
  | .cons key presence shape rest, name =>
    if name = key then some (presence, shape) else rest.find? name

/-- The keys of the members that must be there, in order. -/
def required : Members → List String
  | .nil => []
  | .cons key presence _ rest =>
    if presence = .required then key :: rest.required else rest.required

/-- The keys of the members that must be there and are not known, in order. -/
def lacking : (members : Members) → members.Partial → List String
  | .nil, _ => []
  | .cons key presence _ rest, (slot, others) =>
    if presence = .required ∧ slot.isNone then key :: rest.lacking others else rest.lacking others

/-- Whether a member of an object can be read, or is none that the record knows. -/
def Fits (members : Members) (entry : String × Json) : Prop :=
  ∀ presence shape, members.find? entry.1 = some (presence, shape) →
    ∃ slot, presence.read shape.decode entry.2 = .ok slot

end Members

/-- Whether a value stands for the absence of a member. -/
def Presence.skips : Presence → Json → Bool
  | .optional, value => value.isNull
  | .nullable, value => value.isNull
  | _, _ => false

/-- Whether a value is read by its parts: an array as a list, or an object as a record. -/
def Shape.opens : Shape → Json → Bool
  | .list _, .array _ => true
  | .record _ _, .object _ => true
  | _, _ => false

/-- Why a value does not have a shape. -/
inductive Shape.Refuses : Shape → Json → DecodeError → Prop
  /-- A value that has no parts to be read is refused as a whole. -/
  | whole {shape : Shape} {value : Json} {e : DecodeError} (hopens : shape.opens value = false)
      (h : shape.decode value = .error e) : shape.Refuses value e
  /-- A list is refused for its first item that cannot be read. -/
  | item {item : Shape} {before after : List Json} {value : Json} {e : DecodeError}
      (hbefore : ∀ earlier ∈ before, ∃ x, item.decode earlier = .ok x)
      (h : item.Refuses value e) :
      (Shape.list item).Refuses (.array (before ++ value :: after)) e
  /-- An object is refused for its first member that is known and cannot be read. -/
  | member {record key : String} {members : Members} {presence : Presence} {shape : Shape}
      {before after : List (String × Json)} {value : Json} {e : DecodeError}
      (hbefore : ∀ earlier ∈ before, members.Fits earlier)
      (hfind : members.find? key = some (presence, shape))
      (hskips : presence.skips value = false) (h : shape.Refuses value e) :
      (Shape.record record members).Refuses (.object (before ++ (key, value) :: after)) e
  /-- An object of which every member can be read is refused for the first one that it lacks. -/
  | missing {record key : String} {members : Members} {before after : List String}
      {entries : List (String × Json)} (hentries : ∀ entry ∈ entries, members.Fits entry)
      (hrequired : members.required = before ++ key :: after)
      (hbefore : ∀ earlier ∈ before, earlier ∈ entries.map Prod.fst)
      (hkey : key ∉ entries.map Prod.fst) :
      (Shape.record record members).Refuses (.object entries) (.missingMember key)

/-! ### Members that cannot be read -/

/-- A member cannot be read when its value cannot, unless the value stands for its absence. -/
theorem Presence.read_eq_error_iff {α : Type} {presence : Presence}
    {decode : Json → Except DecodeError α} {value : Json} {e : DecodeError} :
    presence.read decode value = .error e ↔
      presence.skips value = false ∧ decode value = .error e := by
  cases presence with
  | required | defaulted => simp [read, skips]
  | optional | nullable =>
      cases hnull : value.isNull <;> simp [read, skips, hnull, map_eq_error_iff]

/-- Only a member that must be there is not made up for. -/
theorem Presence.absent?_eq_none_iff {α : Type} {presence : Presence} {empty : α} :
    presence.absent? empty = none ↔ presence = .required := by
  cases presence <;> simp [absent?]

namespace Members

variable {name : String} {value : Json} {entries : List (String × Json)} {e : DecodeError}

/-- Reading one member of an object fails as reading its value does, whatever is known so far. -/
theorem fill_eq_error_iff : (members : Members) → (known : members.Partial) →
    (members.fill name value known = .error e ↔
      ∃ presence shape, members.find? name = some (presence, shape) ∧
        presence.read shape.decode value = .error e)
  | .nil, () => by simp [fill, find?]
  | .cons key presence shape rest, (slot, others) => by
    rw [fill, find?]
    by_cases hname : name = key
    · simp [hname, bind_eq_error_iff, pure, Except.pure]
    · simp [hname, bind_eq_error_iff, pure, Except.pure, fill_eq_error_iff rest others]

/-- A member of an object is read when it fits. -/
theorem exists_fill_iff {members : Members} (known : members.Partial) :
    (∃ known', members.fill name value known = .ok known') ↔ members.Fits (name, value) := by
  rw [exists_eq_ok_iff]
  simp only [ne_eq, fill_eq_error_iff members known, Fits, exists_eq_ok_iff]
  constructor
  · exact fun h presence shape hfind e hread => h e ⟨presence, shape, hfind, hread⟩
  · rintro h e ⟨presence, shape, hfind, hread⟩
    exact h presence shape hfind e hread

/-- The members of an object are read when each of them fits. -/
theorem exists_fillAll_iff {members : Members} (known : members.Partial) :
    (∃ known', members.fillAll known entries = .ok known') ↔
      ∀ entry ∈ entries, members.Fits entry := by
  induction entries generalizing known with
  | nil => exact ⟨fun _ => nofun, fun _ => ⟨known, rfl⟩⟩
  | cons entry entries ih =>
      obtain ⟨name, value⟩ := entry
      rw [fillAll_cons, List.forall_mem_cons, ← exists_fill_iff known]
      simp only [bind_eq_ok_iff]
      constructor
      · rintro ⟨known', reached, hfirst, hrest⟩
        exact ⟨⟨reached, hfirst⟩, (ih reached).mp ⟨known', hrest⟩⟩
      · rintro ⟨⟨reached, hfirst⟩, hrest⟩
        obtain ⟨known', hknown⟩ := (ih reached).mpr hrest
        exact ⟨known', reached, hfirst, hknown⟩

/-- **Reading the members of an object fails** as it does for the first of them that does not
fit. -/
theorem fillAll_eq_error_iff {members : Members} (known : members.Partial) :
    members.fillAll known entries = .error e ↔
      ∃ before key value after, entries = before ++ (key, value) :: after ∧
        (∀ earlier ∈ before, members.Fits earlier) ∧
        ∃ presence shape, members.find? key = some (presence, shape) ∧
          presence.read shape.decode value = .error e := by
  rw [fillAll, foldlM_eq_error_iff]
  constructor
  · rintro ⟨before, ⟨key, value⟩, after, reached, rfl, hbefore, hfailing⟩
    exact ⟨before, key, value, after, rfl, (exists_fillAll_iff known).mp ⟨reached, hbefore⟩,
      (fill_eq_error_iff members reached).mp hfailing⟩
  · rintro ⟨before, key, value, after, rfl, hbefore, hfailing⟩
    obtain ⟨reached, hreached⟩ := (exists_fillAll_iff known).mpr hbefore
    exact ⟨before, (key, value), after, reached, rfl, hreached,
      (fill_eq_error_iff members reached).mpr hfailing⟩

/-! ### Members that are lacking -/

/-- Nothing is known before anything is read. -/
theorem lacking_blank : (members : Members) → members.lacking members.blank = members.required
  | .nil => rfl
  | .cons key presence shape rest => by
    rw [blank, lacking, required, lacking_blank rest]
    simp

/-- What is lacking has a key. -/
theorem lacking_subset : (members : Members) → (known : members.Partial) →
    members.lacking known ⊆ members.keys
  | .nil, () => List.Subset.refl _
  | .cons key presence shape rest, (slot, others) => by
    have hrest := lacking_subset rest others
    rw [lacking, keys]
    split
    · exact List.cons_subset_cons key hrest
    · exact List.subset_cons_of_subset key hrest

/-- A member that is read is lacking no more. -/
theorem lacking_fill : (members : Members) → members.keys.Nodup →
    (known known' : members.Partial) → members.fill name value known = .ok known' →
      members.lacking known' = (members.lacking known).filter (· ≠ name)
  | .nil, _, (), (), _ => rfl
  | .cons key presence shape rest, hkeys, (slot, others), (slot', others'), h => by
    obtain ⟨hkey, hrest⟩ := List.nodup_cons.mp hkeys
    rw [fill] at h
    by_cases hname : name = key
    · subst hname
      rw [if_pos rfl] at h
      obtain ⟨x, -, hx⟩ := bind_eq_ok_iff.mp h
      cases hx
      have hkeep : (rest.lacking others).filter (· ≠ name) = rest.lacking others :=
        List.filter_eq_self.mpr fun other hother => by
          simpa using fun heq : other = name => hkey (heq ▸ lacking_subset rest others hother)
      rw [lacking, lacking, if_neg (by simp)]
      split
      · rw [List.filter_cons_of_neg (by simp), hkeep]
      · exact hkeep.symm
    · rw [if_neg hname] at h
      obtain ⟨reached, hreached, hx⟩ := bind_eq_ok_iff.mp h
      cases hx
      rw [lacking, lacking, lacking_fill rest hrest others _ hreached]
      split
      · rw [List.filter_cons_of_pos (by simpa using Ne.symm hname)]
      · rfl

/-- Members that are read are lacking no more. -/
theorem lacking_fillAll {members : Members} (hkeys : members.keys.Nodup)
    {known known' : members.Partial} (h : members.fillAll known entries = .ok known') :
    members.lacking known' =
      (members.lacking known).filter (· ∉ entries.map Prod.fst) := by
  induction entries generalizing known with
  | nil =>
      cases h
      simp
  | cons entry entries ih =>
      obtain ⟨name, value⟩ := entry
      rw [fillAll_cons] at h
      obtain ⟨reached, hfirst, hrest⟩ := bind_eq_ok_iff.mp h
      rw [ih hrest, lacking_fill members hkeys known reached hfirst, List.filter_filter]
      refine List.filter_congr fun key _ => ?_
      rw [← Bool.decide_and]
      exact decide_eq_decide.mpr (by rw [List.map_cons, List.mem_cons, not_or, and_comm])

/-- **Closing fails** for the first member that is lacking. -/
theorem close_eq_error_iff : (members : Members) → (known : members.Partial) →
    (members.close known = .error e ↔
      ∃ key, (members.lacking known).head? = some key ∧ e = .missingMember key)
  | .nil, () => by simp [close, lacking]
  | .cons key presence shape rest, (slot, others) => by
    rw [close, lacking]
    cases hslot : slot.orElse fun _ => presence.absent? shape.empty with
    | none =>
        obtain ⟨rfl, hrequired⟩ : slot = none ∧ presence = .required := by
          cases slot with
          | none => exact ⟨rfl, Presence.absent?_eq_none_iff.mp hslot⟩
          | some x => cases hslot
        simp [bind, Except.bind, eq_comm, hrequired]
    | some x =>
        have hknown : ¬(presence = .required ∧ slot.isNone) := by
          rintro ⟨hrequired, hnone⟩
          rw [Option.isNone_iff_eq_none.mp hnone] at hslot
          have habsent : presence.absent? shape.empty = some x := hslot
          rw [Presence.absent?_eq_none_iff.mpr hrequired] at habsent
          cases habsent
        rw [if_neg hknown, ← close_eq_error_iff rest others]
        cases rest.close others <;> simp [bind, Except.bind, pure, Except.pure]

/-- The first member that an object lacks: the first, in the order of the record, that must be
there and is not under any name. -/
theorem head?_lacking_iff {members : Members} (hkeys : members.keys.Nodup)
    {known : members.Partial} (h : members.fillAll members.blank entries = .ok known)
    {key : String} :
    (members.lacking known).head? = some key ↔
      ∃ before after, members.required = before ++ key :: after ∧
        (∀ earlier ∈ before, earlier ∈ entries.map Prod.fst) ∧ key ∉ entries.map Prod.fst := by
  rw [lacking_fillAll hkeys h, lacking_blank, List.head?_filter, List.find?_eq_some_iff_append]
  simp only [decide_eq_true_eq, Bool.not_eq_true', decide_eq_false_iff_not, not_not]
  constructor
  · rintro ⟨hkey, before, after, hrequired, hbefore⟩
    exact ⟨before, after, hrequired, hbefore, hkey⟩
  · rintro ⟨before, after, hrequired, hbefore, hkey⟩
    exact ⟨hkey, before, after, hrequired, hbefore⟩

/-- The members of a member's shape have distinct keys, if those of the whole shape have. -/
theorem hasDistinctKeys_of_find? {presence : Presence} {shape : Shape} : (members : Members) →
    members.hasDistinctKeys = true → members.find? name = some (presence, shape) →
      shape.hasDistinctKeys = true
  | .nil, _, h => by cases h
  | .cons key presence' shape' rest, hdistinct, h => by
    obtain ⟨-, hshape, hrest⟩ := hasDistinctKeys_cons.mp hdistinct
    rw [find?] at h
    split at h
    · cases h
      exact hshape
    · exact hasDistinctKeys_of_find? rest hrest h

/-- Keys that are distinct within all records are so in this one. -/
theorem nodup_keys : (members : Members) → members.hasDistinctKeys = true → members.keys.Nodup
  | .nil, _ => List.nodup_nil
  | .cons key presence shape rest, h => by
    obtain ⟨hkey, -, hrest⟩ := hasDistinctKeys_cons.mp h
    exact List.nodup_cons.mpr ⟨hkey, nodup_keys rest hrest⟩

end Members

/-! ### Refusals -/

/-- A value that has no parts to be read is refused as a whole. -/
theorem Shape.decode_eq_error_iff_of_not_opens {shape : Shape} {value : Json} {e : DecodeError}
    (hopens : shape.opens value = false) :
    shape.decode value = .error e ↔ shape.Refuses value e := by
  constructor
  · exact .whole hopens
  · intro h
    cases h with
    | whole _ h => exact h
    | item _ _ | member _ _ _ _ | missing _ _ _ _ => cases hopens

/-- Reading an object fails for its first member that does not fit, or else for the first one that
it lacks. -/
theorem Members.decode_object_eq_error_iff {record : String} {members : Members}
    (hkeys : members.keys.Nodup) {entries : List (String × Json)} {e : DecodeError} :
    (Shape.record record members).decode (.object entries) = .error e ↔
      (∃ before key value after, entries = before ++ (key, value) :: after ∧
        (∀ earlier ∈ before, members.Fits earlier) ∧
        ∃ presence shape, members.find? key = some (presence, shape) ∧
          presence.read shape.decode value = .error e) ∨
      (∀ entry ∈ entries, members.Fits entry) ∧
        ∃ before key after, members.required = before ++ key :: after ∧
          (∀ earlier ∈ before, earlier ∈ entries.map Prod.fst) ∧
          key ∉ entries.map Prod.fst ∧ e = .missingMember key := by
  have hdecode : (Shape.record record members).decode (.object entries) =
      members.fillAll members.blank entries >>= members.close := rfl
  rw [hdecode, bind_eq_error_iff, fillAll_eq_error_iff, ← exists_fillAll_iff members.blank]
  refine or_congr_right ?_
  constructor
  · rintro ⟨known, hknown, hclose⟩
    obtain ⟨key, hlacking, rfl⟩ := (close_eq_error_iff members known).mp hclose
    obtain ⟨before, after, hrequired, hbefore, hkey⟩ :=
      (head?_lacking_iff hkeys hknown).mp hlacking
    exact ⟨⟨known, hknown⟩, before, key, after, hrequired, hbefore, hkey, rfl⟩
  · rintro ⟨⟨known, hknown⟩, before, key, after, hrequired, hbefore, hkey, rfl⟩
    refine ⟨known, hknown, (close_eq_error_iff members known).mpr ⟨key, ?_, rfl⟩⟩
    exact (head?_lacking_iff hkeys hknown).mpr ⟨before, after, hrequired, hbefore, hkey⟩

/-- A list is refused for its first item that cannot be read. -/
theorem Shape.decode_list_eq_error_iff {item : Shape} {e : DecodeError}
    (hitem : ∀ value, item.decode value = .error e ↔ item.Refuses value e) (value : Json) :
    (Shape.list item).decode value = .error e ↔ (Shape.list item).Refuses value e := by
  cases value with
  | array items =>
      have hdecode : (Shape.list item).decode (.array items) = items.mapM item.decode := rfl
      rw [hdecode, mapM_eq_error_iff]
      constructor
      · rintro ⟨before, value, after, rfl, hbefore, hvalue⟩
        exact .item hbefore ((hitem value).mp hvalue)
      · intro h
        cases h with
        | whole hopens _ => cases hopens
        | item hbefore hvalue => exact ⟨_, _, _, rfl, hbefore, (hitem _).mpr hvalue⟩
  | _ => exact decode_eq_error_iff_of_not_opens rfl

/-- A record is refused for its first member that cannot be read or, if there is none, for the
first one that it lacks. -/
theorem Shape.decode_record_eq_error_iff {record : String} {members : Members} {e : DecodeError}
    (hkeys : members.keys.Nodup)
    (hmember : ∀ {name presence shape}, members.find? name = some (presence, shape) →
      ∀ value, shape.decode value = .error e ↔ shape.Refuses value e) (value : Json) :
    (Shape.record record members).decode value = .error e ↔
      (Shape.record record members).Refuses value e := by
  cases value with
  | object entries =>
      rw [Members.decode_object_eq_error_iff hkeys]
      constructor
      · rintro (⟨before, key, value, after, rfl, hbefore, presence, shape, hfind, hread⟩ |
          ⟨hentries, before, key, after, hrequired, hbefore, hkey, rfl⟩)
        · obtain ⟨hskips, hvalue⟩ := Presence.read_eq_error_iff.mp hread
          exact .member hbefore hfind hskips ((hmember hfind value).mp hvalue)
        · exact .missing hentries hrequired hbefore hkey
      · intro h
        cases h with
        | whole hopens _ => cases hopens
        | member hbefore hfind hskips hvalue =>
            exact .inl ⟨_, _, _, _, rfl, hbefore, _, _, hfind,
              Presence.read_eq_error_iff.mpr ⟨hskips, (hmember hfind _).mpr hvalue⟩⟩
        | missing hentries hrequired hbefore hkey =>
            exact .inr ⟨hentries, _, _, _, hrequired, hbefore, hkey, rfl⟩
  | _ => exact decode_eq_error_iff_of_not_opens rfl

mutual

/-- **Reading fails for the reason for which a value is refused**, and for no other. -/
theorem Shape.decode_eq_error_iff : (shape : Shape) → shape.hasDistinctKeys = true →
    (value : Json) → (e : DecodeError) →
      (shape.decode value = .error e ↔ shape.Refuses value e)
  | .text, _, _, _ | .unsigned _, _, _, _ | .number, _, _, _ | .direction, _, _, _
  | .object, _, _, _ => Shape.decode_eq_error_iff_of_not_opens rfl
  | .list item, h, value, e =>
    Shape.decode_list_eq_error_iff (fun value => item.decode_eq_error_iff h value e) value
  | .record _ members, h, value, e =>
    Shape.decode_record_eq_error_iff (members.nodup_keys h)
      (fun hfind value => members.decode_eq_error_iff h hfind value e) value

/-- Reading a member fails for the reason for which its value is refused. -/
theorem Members.decode_eq_error_iff : (members : Members) → members.hasDistinctKeys = true →
    {name : String} → {presence : Presence} → {shape : Shape} →
      members.find? name = some (presence, shape) → (value : Json) → (e : DecodeError) →
        (shape.decode value = .error e ↔ shape.Refuses value e)
  | .nil, _, _, _, _, h, _, _ => by cases h
  | .cons key presence' shape' rest, hdistinct, name, presence, shape, h, value, e => by
    obtain ⟨-, hshape, hrest⟩ := Members.hasDistinctKeys_cons.mp hdistinct
    rw [Members.find?] at h
    split at h
    · cases h
      exact shape'.decode_eq_error_iff hshape value e
    · exact rest.decode_eq_error_iff hrest h value e

end

end RecordQuery
