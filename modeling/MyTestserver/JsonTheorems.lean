import MyTestserver.JsonTokens

namespace MyTestserver.Json

-- A value that the library can hold and write.
structure Sound (j : Json) : Prop where
  utf8 : j.Utf8
  wellFormed : j.WellFormed

section Members

variable {key : Bytes} {v : Json} {members : List (Bytes × Json)}

-- The keys in front of which a member is put stay behind it.
theorem mem_insertMember {member : Bytes × Json} (h : member ∈ insertMember key v members) :
    member = (key, v) ∨ member ∈ members := by
  induction members with
  | nil => exact .inl (List.mem_singleton.mp h)
  | cons first members ih =>
      obtain ⟨k, w⟩ := first
      simp only [insertMember] at h
      split at h
      · exact (List.mem_cons.mp h).imp id fun h => List.mem_cons_of_mem _ h
      split at h
      · exact List.mem_cons.mp h
      · rcases List.mem_cons.mp h with h | h
        · exact .inr (h ▸ List.mem_cons_self)
        · exact (ih h).imp id fun h => List.mem_cons_of_mem _ h

theorem sorted_insertMember (h : (members.map Prod.fst).Pairwise (· < ·)) :
    ((insertMember key v members).map Prod.fst).Pairwise (· < ·) := by
  induction members with
  | nil => exact List.pairwise_singleton _ _
  | cons first members ih =>
      obtain ⟨k, w⟩ := first
      obtain ⟨hfirst, hmembers⟩ := List.pairwise_cons.mp h
      simp only [insertMember]
      split
      · rename_i hkey
        exact hkey ▸ h
      split
      · rename_i hlt
        refine List.pairwise_cons.mpr ⟨fun other hother => ?_, h⟩
        rcases List.mem_cons.mp hother with rfl | hother
        · exact hlt
        · exact List.lt_trans hlt (hfirst other hother)
      · rename_i hne hlt
        refine List.pairwise_cons.mpr ⟨fun other hother => ?_, ih hmembers⟩
        obtain ⟨member, hmember, rfl⟩ := List.mem_map.mp hother
        rcases mem_insertMember hmember with rfl | hmember
        · exact Std.lt_of_le_of_ne (Std.not_lt.mp hlt) (Ne.symm hne)
        · exact hfirst _ (List.mem_map_of_mem hmember)

-- A key behind all others is put last.
theorem insertMember_last (h : ∀ member ∈ members, member.1 < key) :
    insertMember key v members = members ++ [(key, v)] := by
  induction members with
  | nil => rfl
  | cons first members ih =>
      obtain ⟨k, w⟩ := first
      obtain ⟨hfirst, hmembers⟩ := List.forall_mem_cons.mp h
      have hne : key ≠ k := by
        rintro rfl
        exact List.lt_irrefl _ hfirst
      have hlt : ¬key < k := fun hlt => List.lt_irrefl _ (List.lt_trans hlt hfirst)
      rw [insertMember, if_neg hne, if_neg hlt, ih hmembers, List.cons_append]

end Members

section Sound

variable {j : Json}

theorem isSorted_object {members : List (Bytes × Json)} :
    (object members).isSorted = true ↔ (members.map Prod.fst).Pairwise (· < ·) :=
  decide_eq_true_iff

theorem sound_object_iff {members : List (Bytes × Json)} : (object members).Sound ↔
    (members.map Prod.fst).Pairwise (· < ·) ∧
      ∀ member ∈ members, ValidUtf8 member.1 ∧ member.2.Sound := by
  constructor
  · rintro ⟨hutf8, hfits, hsorted⟩
    obtain ⟨hkeys, hitems⟩ := all_object_iff.mp hsorted
    refine ⟨isSorted_object.mp hkeys, fun member hmember => ?_⟩
    obtain ⟨hkey, hitem⟩ := utf8_object_iff.mp hutf8 member hmember
    exact ⟨hkey, hitem, (all_object_iff.mp hfits).2 member hmember, hitems member hmember⟩
  · rintro ⟨hkeys, hmembers⟩
    exact {
      utf8 := utf8_object_iff.mpr fun member hmember =>
        ⟨(hmembers member hmember).1, (hmembers member hmember).2.utf8⟩
      wellFormed := {
        fits := all_object_iff.mpr
          ⟨rfl, fun member hmember => (hmembers member hmember).2.wellFormed.fits⟩
        sorted := all_object_iff.mpr ⟨isSorted_object.mpr hkeys,
          fun member hmember => (hmembers member hmember).2.wellFormed.sorted⟩ } }

theorem sound_array_iff {items : List Json} :
    (array items).Sound ↔ ∀ item ∈ items, item.Sound := by
  constructor
  · rintro ⟨hutf8, hfits, hsorted⟩ item hitem
    exact ⟨utf8_array_iff.mp hutf8 item hitem, (all_array_iff.mp hfits).2 item hitem,
      (all_array_iff.mp hsorted).2 item hitem⟩
  · intro h
    exact {
      utf8 := utf8_array_iff.mpr fun item hitem => (h item hitem).utf8
      wellFormed := {
        fits := all_array_iff.mpr ⟨rfl, fun item hitem => (h item hitem).wellFormed.fits⟩
        sorted := all_array_iff.mpr ⟨rfl, fun item hitem => (h item hitem).wellFormed.sorted⟩ } }

theorem sound_insertMember {key : Bytes} {v : Json} {members : List (Bytes × Json)}
    (h : (object members).Sound) (hkey : ValidUtf8 key) (hv : v.Sound) :
    (object (insertMember key v members)).Sound := by
  obtain ⟨hsorted, hmembers⟩ := sound_object_iff.mp h
  refine sound_object_iff.mpr ⟨sorted_insertMember hsorted, fun member hmember => ?_⟩
  rcases mem_insertMember hmember with rfl | hmember
  · exact ⟨hkey, hv⟩
  · exact hmembers member hmember

-- A value that is still being read, and the state that tells what it is.
def Container.Open (state : Bool) : Container → Prop
  | .array items => state = true ∧ (Json.array items).Sound
  | .object members object_element =>
      state = false ∧ (Json.object members).Sound ∧ ValidUtf8 object_element

-- The stack of the values around is that of the states.
structure DomParser.Sound (dom : DomParser) (states : List Bool) : Prop where
  root : dom.root.Sound
  ref_stack : List.Forall₂ Container.Open states dom.ref_stack

namespace DomParser.Sound

variable {dom : DomParser} {states : List Bool}

theorem handleValue (h : dom.Sound states) {v : Json} (hv : v.Sound) :
    (dom.handleValue v).Sound states := by
  obtain ⟨root, ref_stack⟩ := dom
  obtain ⟨hroot, hstack⟩ := h
  cases hstack with
  | nil => exact ⟨hv, .nil⟩
  | @cons state container states below hcontainer hbelow =>
      cases container with
      | array items =>
          obtain ⟨hstate, hitems⟩ := hcontainer
          refine ⟨hroot, .cons ⟨hstate, ?_⟩ hbelow⟩
          refine sound_array_iff.mpr (List.forall_mem_append.mpr ⟨sound_array_iff.mp hitems, ?_⟩)
          exact List.forall_mem_singleton.mpr hv
      | object members object_element =>
          obtain ⟨hstate, hmembers, hkey⟩ := hcontainer
          exact ⟨hroot, .cons ⟨hstate, sound_insertMember hmembers hkey hv, hkey⟩ hbelow⟩

theorem startArray (h : dom.Sound states) : dom.startArray.Sound (true :: states) :=
  ⟨h.root, .cons ⟨rfl, sound_array_iff.mpr (List.forall_mem_nil _)⟩ h.ref_stack⟩

theorem startObject (h : dom.Sound states) : dom.startObject.Sound (false :: states) := by
  refine ⟨h.root, .cons ⟨rfl, ?_, validUtf8_ascii ""⟩ h.ref_stack⟩
  exact sound_object_iff.mpr ⟨.nil, List.forall_mem_nil _⟩

theorem key (h : dom.Sound (false :: states)) {val : Bytes} (hval : ValidUtf8 val) :
    (dom.key val).Sound (false :: states) := by
  obtain ⟨root, ref_stack⟩ := dom
  obtain ⟨hroot, hstack⟩ := h
  obtain _ | ⟨hcontainer, hbelow⟩ := hstack
  rename_i container below
  cases container with
  | array items => cases hcontainer.1
  | object members object_element =>
      obtain ⟨hstate, hmembers, -⟩ := hcontainer
      exact ⟨hroot, .cons ⟨hstate, hmembers, hval⟩ hbelow⟩

theorem endArray (h : dom.Sound (true :: states)) : dom.endArray.Sound states := by
  obtain ⟨root, ref_stack⟩ := dom
  obtain ⟨hroot, hstack⟩ := h
  obtain _ | ⟨hcontainer, hbelow⟩ := hstack
  rename_i container below
  cases container with
  | array items =>
      have hbelow : DomParser.Sound ⟨root, below⟩ states := ⟨hroot, hbelow⟩
      exact hbelow.handleValue hcontainer.2
  | object members object_element => cases hcontainer.1

theorem endObject (h : dom.Sound (false :: states)) : dom.endObject.Sound states := by
  obtain ⟨root, ref_stack⟩ := dom
  obtain ⟨hroot, hstack⟩ := h
  obtain _ | ⟨hcontainer, hbelow⟩ := hstack
  rename_i container below
  cases container with
  | array items => cases hcontainer.1
  | object members object_element =>
      have hbelow : DomParser.Sound ⟨root, below⟩ states := ⟨hroot, hbelow⟩
      exact hbelow.handleValue hcontainer.2.1

end DomParser.Sound

theorem forall_mem_two {p : Token → Prop} {first second : Token} {rest : List Token}
    (h : ∀ token ∈ first :: second :: rest, p token) :
    p first ∧ p second ∧ ∀ token ∈ rest, p token := by
  simpa only [List.forall_mem_cons] using h

-- How the parser ends: with an exception of the two that it throws, or behind a value.
def Answers : Except Exception (DomParser × List Token) → Prop
  | .ok (dom, _) => dom.Sound []
  | .error e => e = .parse_error ∨ e = .out_of_range

theorem answers_parse :
    (∀ states dom tokens, (∀ token ∈ tokens, token.Sound) → dom.Sound states →
      Answers (Parser.parseValue states dom tokens)) ∧
    ∀ states dom tokens, (∀ token ∈ tokens, token.Sound) → dom.Sound states →
      Answers (Parser.evaluateState states dom tokens) := by
  apply Parser.parseValue.mutual_induct
    (fun states dom tokens => (∀ token ∈ tokens, token.Sound) → dom.Sound states →
      Answers (Parser.parseValue states dom tokens))
    (fun states dom tokens => (∀ token ∈ tokens, token.Sound) → dom.Sound states →
      Answers (Parser.evaluateState states dom tokens))
  case case1 =>
    intro states dom rest ih htokens h
    obtain ⟨-, -, hrest⟩ := forall_mem_two htokens
    rw [Parser.parseValue]
    exact ih hrest h.startObject.endObject
  case case2 =>
    intro states dom val rest ih htokens h
    obtain ⟨-, hval, hrest⟩ := forall_mem_two htokens
    rw [Parser.parseValue]
    exact ih (List.forall_mem_cons.mp hrest).2 (h.startObject.key hval)
  case case3 =>
    intro states dom rest ih htokens h
    obtain ⟨-, -, hrest⟩ := forall_mem_two htokens
    rw [Parser.parseValue]
    exact ih hrest h.startArray.endArray
  case case4 =>
    intro states dom rest hend ih htokens h
    rw [Parser.parseValue]
    · exact ih (List.forall_mem_cons.mp htokens).2 h.startArray
    · exact hend
  case case5 =>
    intro states dom rest _ _
    rw [Parser.parseValue]
    exact .inr rfl
  case case6 =>
    intro states dom val rest ih htokens h
    rw [Parser.parseValue]
    exact ih (List.forall_mem_cons.mp htokens).2 (h.handleValue ⟨rfl, rfl, rfl⟩)
  case case7 | case8 | case9 =>
    intro states dom rest ih htokens h
    rw [Parser.parseValue]
    exact ih (List.forall_mem_cons.mp htokens).2 (h.handleValue ⟨rfl, rfl, rfl⟩)
  case case10 | case12 =>
    intro states dom val rest ih htokens h
    obtain ⟨hval, hrest⟩ := List.forall_mem_cons.mp htokens
    rw [Parser.parseValue]
    exact ih hrest (h.handleValue ⟨rfl, decide_eq_true hval, rfl⟩)
  case case11 =>
    intro states dom val rest ih htokens h
    obtain ⟨hval, hrest⟩ := List.forall_mem_cons.mp htokens
    rw [Parser.parseValue]
    exact ih hrest (h.handleValue ⟨utf8_string_iff.mpr hval, rfl, rfl⟩)
  case case13 =>
    intros
    rw [Parser.parseValue]
    · exact .inl rfl
    all_goals assumption
  case case14 =>
    intro dom tokens _ h
    rw [Parser.evaluateState]
    exact h
  case case15 =>
    intro dom states rest ih htokens h
    rw [Parser.evaluateState]
    exact ih (List.forall_mem_cons.mp htokens).2 h
  case case16 =>
    intro dom states rest ih htokens h
    rw [Parser.evaluateState]
    exact ih (List.forall_mem_cons.mp htokens).2 h.endArray
  case case17 =>
    intro dom states val rest ih htokens h
    obtain ⟨-, hval, hrest⟩ := forall_mem_two htokens
    rw [Parser.evaluateState]
    exact ih (List.forall_mem_cons.mp hrest).2 (h.key hval)
  case case18 =>
    intro dom states rest ih htokens h
    rw [Parser.evaluateState]
    exact ih (List.forall_mem_cons.mp htokens).2 h.endObject
  case case19 =>
    intros
    rw [Parser.evaluateState]
    · exact .inl rfl
    all_goals assumption

-- Whatever strtod makes of a number, the parser throws only what it documents, and what it
-- returns could have been built and written by the program.
theorem parse_sound (strtod : Bytes → Option Int32) (text : Bytes) :
    (∀ {e}, parse strtod text = .error e → e = .parse_error ∨ e = .out_of_range) ∧
      ∀ {j}, parse strtod text = .ok j → j.Sound := by
  have hnew : DomParser.new.Sound [] := ⟨⟨rfl, rfl, rfl⟩, .nil⟩
  have hanswers := answers_parse.1 [] .new _ (Lexer.sound_tokens strtod text) hnew
  unfold parse Parser.parse
  split
  · rename_i dom rest hparse
    rw [hparse] at hanswers
    refine ⟨fun h => (by cases h), fun h => ?_⟩
    obtain rfl := Except.ok.inj h
    exact hanswers.root
  · exact ⟨fun h => .inl (Except.error.inj h).symm, fun h => (by cases h)⟩
  · rename_i e hparse
    rw [hparse] at hanswers
    exact ⟨fun h => Except.error.inj h ▸ hanswers, fun h => (by cases h)⟩

-- The assumption about the parser holds of its code.
theorem parseDocumented_parse (strtod : Bytes → Option Int32) :
    ParseDocumented (parse strtod) ∧ ∀ {text j}, parse strtod text = .ok j → j.WellFormed where
  left := {
    throws := (parse_sound strtod _).1
    utf8 := fun h => ((parse_sound strtod _).2 h).utf8 }
  right h := ((parse_sound strtod _).2 h).wellFormed

end Sound

section RoundTrip

-- The members of an object as the library keeps them.
def collect (members : List (Bytes × Json)) : List (Bytes × Json) :=
  members.foldl (fun members member => insertMember member.1 member.2 members) []

mutual

-- What a value is read back as: a number is an unsigned one where it can be.
def normal : Json → Json
  | .number_integer (.ofNat n) => .number_unsigned n
  | .array items => .array (normalItems items)
  | .object members => .object (collect (normalMembers members))
  | j => j

def normalItems : List Json → List Json
  | [] => []
  | item :: items => item.normal :: normalItems items

def normalMembers : List (Bytes × Json) → List (Bytes × Json)
  | [] => []
  | (key, item) :: members => (key, item.normal) :: normalMembers members

end

-- What the parser does with the tokens of a value that it is to read, whatever is around it.
def Reads (j : Json) : Prop := ∀ states dom rest,
  Parser.parseValue states dom (j.writtenTokens ++ rest) =
    Parser.evaluateState states (dom.handleValue j.normal) rest

variable {root : Json} {below : List Container} {states : List Bool}

theorem writtenTokens_ne_end (j : Json) (rest rest' : List Token) :
    j.writtenTokens ++ rest ≠ .end_array :: rest' := by
  intro h
  cases j with
  | boolean value => cases value <;> cases h
  | number_integer value => cases value <;> cases h
  | _ => cases h

theorem exists_more (item : Json) (items : List Json) :
    ∃ more, writtenItems (item :: items) = item.writtenTokens ++ more := by
  cases items with
  | nil => exact ⟨[], (List.append_nil _).symm⟩
  | cons next items => exact ⟨.value_separator :: writtenItems (next :: items), rfl⟩

theorem parseValue_items {items : List Json} (item : Json) (done : List Json) (rest : List Token)
    (h : ∀ item' ∈ item :: items, item'.Reads) :
    Parser.parseValue (true :: states) ⟨root, .array done :: below⟩
        (writtenItems (item :: items) ++ .end_array :: rest) =
      Parser.evaluateState states
        (DomParser.handleValue ⟨root, below⟩ (.array (done ++ normalItems (item :: items)))) rest := by
  induction items generalizing item done with
  | nil =>
      rw [writtenItems, h item List.mem_cons_self]
      rfl
  | cons next items ih =>
      obtain ⟨hitem, hitems⟩ := List.forall_mem_cons.mp h
      have htokens : writtenItems (item :: next :: items) ++ .end_array :: rest =
          item.writtenTokens ++
            .value_separator :: (writtenItems (next :: items) ++ .end_array :: rest) := by
        simp [writtenItems]
      have hstep : DomParser.handleValue ⟨root, .array done :: below⟩ item.normal =
          ⟨root, .array (done ++ [item.normal]) :: below⟩ := rfl
      rw [htokens, hitem, Parser.evaluateState, hstep, ih next _ hitems, List.append_assoc]
      rfl

theorem exists_tokens (key : Bytes) (item : Json) (members : List (Bytes × Json)) :
    ∃ tokens, writtenMembers ((key, item) :: members) =
      .value_string key :: .name_separator :: tokens := by
  cases members with
  | nil => exact ⟨item.writtenTokens, rfl⟩
  | cons next members =>
      exact ⟨item.writtenTokens ++ .value_separator :: writtenMembers (next :: members), rfl⟩

-- The members behind those that are done.
theorem parseValue_members {members : List (Bytes × Json)} (key : Bytes) (item : Json)
    (done : List (Bytes × Json)) (rest : List Token)
    (h : ∀ member ∈ (key, item) :: members, member.2.Reads) :
    ∀ tokens,
      writtenMembers ((key, item) :: members) = .value_string key :: .name_separator :: tokens →
      Parser.parseValue (false :: states) ⟨root, .object done key :: below⟩
          (tokens ++ .end_object :: rest) =
        Parser.evaluateState states (DomParser.handleValue ⟨root, below⟩
          (.object ((normalMembers ((key, item) :: members)).foldl
            (fun members member => insertMember member.1 member.2 members) done))) rest := by
  induction members generalizing key item done with
  | nil =>
      intro tokens htokens
      have htokens : tokens = item.writtenTokens := by
        rw [writtenMembers] at htokens
        simpa using htokens.symm
      rw [htokens, h _ List.mem_cons_self]
      rfl
  | cons next members ih =>
      intro tokens htokens
      obtain ⟨key', item'⟩ := next
      obtain ⟨hitem, hmembers⟩ := List.forall_mem_cons.mp h
      obtain ⟨tokens', htokens'⟩ := exists_tokens key' item' members
      have htokens : tokens ++ .end_object :: rest = item.writtenTokens ++ .value_separator ::
          .value_string key' :: .name_separator :: (tokens' ++ .end_object :: rest) := by
        have hcons : tokens = item.writtenTokens ++
            .value_separator :: writtenMembers ((key', item') :: members) := by
          simpa [writtenMembers] using htokens.symm
        rw [hcons, htokens', List.append_assoc]
        rfl
      have hstep : DomParser.handleValue ⟨root, .object done key :: below⟩ item.normal =
          ⟨root, .object (insertMember key item.normal done) key :: below⟩ := rfl
      rw [htokens, hitem, hstep, Parser.evaluateState]
      exact ih key' item' _ hmembers tokens' htokens'

theorem reads (j : Json) : j.Reads := by
  induction j using induct with
  | null => exact fun _ _ _ => rfl
  | boolean value =>
      cases value with
      | true => exact fun _ _ _ => rfl
      | false => exact fun _ _ _ => rfl
  | number_integer value =>
      cases value with
      | ofNat n => exact fun _ _ _ => rfl
      | negSucc n => exact fun _ _ _ => rfl
  | number_unsigned value => exact fun _ _ _ => rfl
  | number_float asInt => exact fun _ _ _ => rfl
  | string value => exact fun _ _ _ => rfl
  | array items ih =>
      rintro states ⟨root, below⟩ rest
      cases items with
      | nil => rfl
      | cons item items =>
          have htokens : (array (item :: items)).writtenTokens ++ rest =
              .begin_array :: (writtenItems (item :: items) ++ .end_array :: rest) := by
            simp [writtenTokens]
          rw [htokens, Parser.parseValue]
          · exact parseValue_items item [] rest ih
          · obtain ⟨more, hmore⟩ := exists_more item items
            rw [hmore, List.append_assoc]
            exact item.writtenTokens_ne_end _
  | object members ih =>
      rintro states ⟨root, below⟩ rest
      cases members with
      | nil => rfl
      | cons member members =>
          obtain ⟨key, item⟩ := member
          obtain ⟨tokens, htokens⟩ := exists_tokens key item members
          have hwritten : (object ((key, item) :: members)).writtenTokens ++ rest =
              .begin_object :: .value_string key :: .name_separator ::
                (tokens ++ .end_object :: rest) := by
            simp [writtenTokens, htokens]
          rw [hwritten, Parser.parseValue]
          exact parseValue_members key item [] rest ih tokens htokens

-- The text of a value is read back as the value.
theorem parse_render (strtod : Bytes → Option Int32) (j : Json) (h : j.Readable) :
    parse strtod j.render = .ok j.normal := by
  rw [parse, tokens_render j h, Parser.parse, reads j]
  rfl

section Normal

theorem normalMembers_eq (members : List (Bytes × Json)) :
    normalMembers members = members.map fun member => (member.1, member.2.normal) := by
  induction members with
  | nil => rfl
  | cons member members ih => rw [normalMembers, ih, List.map_cons]

theorem lookup_normalMembers (members : List (Bytes × Json)) (key : Bytes) :
    (normalMembers members).lookup key = (members.lookup key).map normal := by
  induction members with
  | nil => rfl
  | cons member members ih =>
      obtain ⟨k, item⟩ := member
      rw [normalMembers, List.lookup_cons, List.lookup_cons, ih]
      split <;> rfl

-- Members in the order of their keys stay as they are.
theorem foldl_insertMember {members : List (Bytes × Json)} (done : List (Bytes × Json))
    (h : ((done ++ members).map Prod.fst).Pairwise (· < ·)) :
    members.foldl (fun members member => insertMember member.1 member.2 members) done =
      done ++ members := by
  induction members generalizing done with
  | nil => exact (List.append_nil done).symm
  | cons member members ih =>
      have hpairwise := h
      rw [List.map_append, List.pairwise_append] at hpairwise
      have hbefore : ∀ other ∈ done, other.1 < member.1 := fun other hother =>
        hpairwise.2.2 _ (List.mem_map_of_mem hother) _ List.mem_cons_self
      rw [List.foldl_cons, insertMember_last hbefore, ih, List.append_assoc]
      · rfl
      · simpa using h

theorem collect_sorted {members : List (Bytes × Json)}
    (h : (members.map Prod.fst).Pairwise (· < ·)) : collect members = members :=
  foldl_insertMember [] h

theorem normal_object {members : List (Bytes × Json)} (h : (object members).isSorted = true) :
    (object members).normal = .object (normalMembers members) := by
  have hkeys : (normalMembers members).map Prod.fst = members.map Prod.fst := by
    rw [normalMembers_eq, List.map_map]
    rfl
  rw [normal, collect_sorted]
  rw [hkeys]
  exact isSorted_object.mp h

-- It makes no difference to the text, nor to what is read from the value.

theorem renderItems_normal {items : List Json}
    (h : ∀ item ∈ items, item.normal.render = item.render) :
    renderItems (normalItems items) = renderItems items := by
  induction items with
  | nil => rfl
  | cons item items ih =>
      obtain ⟨hitem, hitems⟩ := List.forall_mem_cons.mp h
      cases items with
      | nil => exact hitem
      | cons next items =>
          have hleft : renderItems (normalItems (item :: next :: items)) =
              item.normal.render ++ [44] ++ renderItems (normalItems (next :: items)) := rfl
          have hright : renderItems (item :: next :: items) =
              item.render ++ [44] ++ renderItems (next :: items) := rfl
          rw [hleft, hright, hitem, ih hitems]

theorem renderMembers_normal {members : List (Bytes × Json)}
    (h : ∀ member ∈ members, member.2.normal.render = member.2.render) :
    renderMembers (normalMembers members) = renderMembers members := by
  induction members with
  | nil => rfl
  | cons member members ih =>
      obtain ⟨key, item⟩ := member
      obtain ⟨hitem, hmembers⟩ := List.forall_mem_cons.mp h
      cases members with
      | nil => exact congrArg (renderString key ++ [58] ++ ·) hitem
      | cons next members =>
          have hleft : renderMembers (normalMembers ((key, item) :: next :: members)) =
              renderString key ++ [58] ++ item.normal.render ++ [44] ++
                renderMembers (normalMembers (next :: members)) := rfl
          have hright : renderMembers ((key, item) :: next :: members) =
              renderString key ++ [58] ++ item.render ++ [44] ++ renderMembers (next :: members) := rfl
          rw [hleft, hright, hitem, ih hmembers]

theorem render_normal (j : Json) (h : j.all isSorted = true) : j.normal.render = j.render := by
  induction j using induct with
  | number_integer value => cases value <;> rfl
  | array items ih =>
      have hitems := (all_array_iff.mp h).2
      exact congrArg ([91] ++ · ++ [93])
        (renderItems_normal fun item hitem => ih item hitem (hitems item hitem))
  | object members ih =>
      obtain ⟨hkeys, hmembers⟩ := all_object_iff.mp h
      rw [normal_object hkeys]
      exact congrArg ([123] ++ · ++ [125])
        (renderMembers_normal fun member hmember => ih member hmember (hmembers member hmember))
  | _ => rfl

theorem getString_normal (j : Json) : j.normal.getString = j.getString := by
  cases j with
  | number_integer value => cases value <;> rfl
  | _ => rfl

theorem getInt_normal (j : Json) : j.normal.getInt = j.getInt := by
  cases j with
  | number_integer value => cases value <;> rfl
  | _ => rfl

theorem isSorted_of_all {j : Json} (h : j.all isSorted = true) : j.isSorted = true := by
  cases j with
  | array items => rfl
  | object members => exact (all_object_iff.mp h).1
  | _ => rfl

-- In an object with the keys in order; in any other value there is nothing to look up.
variable {j : Json} (h : j.isSorted = true)
include h

theorem valueString_normal (key default : Bytes) :
    j.normal.valueString key default = j.valueString key default := by
  cases j with
  | number_integer value => cases value <;> rfl
  | object members =>
      rw [normal_object h]
      simp only [valueString, lookup_normalMembers]
      cases members.lookup key with
      | none => rfl
      | some item => exact getString_normal item
  | _ => rfl

theorem valueInt_normal (key : Bytes) (default : ℤ) :
    j.normal.valueInt key default = j.valueInt key default := by
  cases j with
  | number_integer value => cases value <;> rfl
  | object members =>
      rw [normal_object h]
      simp only [valueInt, lookup_normalMembers]
      cases members.lookup key with
      | none => rfl
      | some item => exact getInt_normal item
  | _ => rfl

end Normal

-- What is dumped is parsed again, whatever strtod makes of floats. The value that comes back
-- dumps to the same text, and what the program looks up in it is what was put there.
theorem parse_dump (strtod : Bytes → Option Int32) {j : Json} {text : Bytes} (h : j.dump = .ok text)
    (hwellFormed : j.WellFormed) (hexact : j.Exact) :
    ∃ j', parse strtod text = .ok j' ∧ j'.dump = .ok text ∧
      (∀ key default, j'.valueString key default = j.valueString key default) ∧
      ∀ key default, j'.valueInt key default = j.valueInt key default := by
  obtain ⟨hfits, hsorted⟩ := hwellFormed
  unfold dump at h
  split at h
  · rename_i hutf8
    obtain rfl := Except.ok.inj h
    have hparse := parse_render strtod j ⟨hutf8, hfits, hexact⟩
    have hself := isSorted_of_all hsorted
    refine ⟨j.normal, hparse, ?_, fun key default => valueString_normal hself key default,
      fun key default => valueInt_normal hself key default⟩
    rw [dump_ok ((parse_sound strtod _).2 hparse).utf8, render_normal j hsorted]
  · cases h

def sampleObject : Json :=
  .object [(ascii "a", .number_integer (-5)),
    (ascii "b", .array [.number_integer 7, .string (ascii "é\n\"")])]

theorem parse_dump_sampleObject : ∃ j', parse (fun _ => none) sampleObject.render = .ok j' ∧
    j'.dump = .ok sampleObject.render ∧
      (∀ key default, j'.valueString key default = sampleObject.valueString key default) ∧
      ∀ key default, j'.valueInt key default = sampleObject.valueInt key default :=
  parse_dump (fun _ => none) (dump_ok (by decide)) (by decide) (by decide)

end RoundTrip

end MyTestserver.Json
