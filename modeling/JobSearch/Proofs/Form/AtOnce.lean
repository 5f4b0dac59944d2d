import JobSearch.Proofs.Form.Lowering

/-!
# Reading a form at once

A form is read in two ways: all its entries first, which are lowered afterwards, or each entry
lowered as soon as it is read. Both take the same forms and give the same parts. Where one fails so
does the other, but the second stops at the first entry that is refused and never sees a fault
behind it.
-/

namespace JobSearch.Form

open Json

section

variable {α : Type} {item : Reader α}

/-- The elements are read one after another from the front of a text; what is left behind them is
the last text. The two truth values say whether an element to be read would be the first. -/
inductive Leads (item : Reader α) : Bool → Text → List α → Bool → Text → Prop where
  /-- No element is read yet. -/
  | nil {first : Bool} {s : Text} : Leads item first s [] first s
  /-- One more element is read. -/
  | cons {first last : Bool} {s t u v : Text} {x : α} {xs : List α}
    (hnext : nextItem first s = .ok (true, t)) (hitem : item t = .ok (x, u))
    (h : Leads item false u xs last v) : Leads item first s (x :: xs) last v

/-- Puts elements in front of those that were read. -/
def prepend (xs : List α) (r : List α × Text) : List α × Text := (xs ++ r.1, r.2)

section Step

variable {fuel : Nat} {first : Bool} {s t u : Text}

theorem items_of_nextItem_error {f : Fault} (hnext : nextItem first s = .error f) :
    items item (fuel + 1) first s = .error f := by
  rw [items, hnext]

theorem items_of_close (hnext : nextItem first s = .ok (false, t)) :
    items item (fuel + 1) first s = .ok ([], t) := by
  rw [items, hnext]

theorem items_of_item_error {f : Fault} (hnext : nextItem first s = .ok (true, t))
    (hitem : item t = .error f) : items item (fuel + 1) first s = .error f := by
  simp only [items, hnext, hitem]

/-- An element that is read stands in front of those behind it. -/
theorem items_of_item {x : α} (hnext : nextItem first s = .ok (true, t))
    (hitem : item t = .ok (x, u)) :
    items item (fuel + 1) first s = (items item fuel false u).map (prepend [x]) := by
  simp only [items, hnext, hitem]
  rfl

end Step

/-- The elements that lead stand in front of those behind them. -/
theorem Leads.items_eq {first last : Bool} {s t : Text} {xs : List α}
    (h : Leads item first s xs last t) (fuel : Nat) :
    items item (fuel + xs.length) first s = (items item fuel last t).map (prepend xs) := by
  induction h with
  | nil =>
    rw [List.length_nil, Nat.add_zero]
    cases items item fuel _ _ <;> rfl
  | @cons first last s t u v x xs hnext hitem h ih =>
    rw [List.length_cons, ← Nat.add_assoc, items_of_item hnext hitem, ih]
    cases items item fuel last v <;> rfl

/-- What reading an array comes to, given what was read between its brackets. -/
def finish (text : Text) (inside : Except Fault (α × Text)) : Except Json.Error α :=
  readWhole (fun _ => enclose closeArray inside) text

theorem finish_map {β : Type} (text : Text) (inside : Except Fault (α × Text)) (f : α → β) :
    finish text (inside.map fun r => (f r.1, r.2)) = (finish text inside).map f := by
  cases inside with
  | error d => rfl
  | ok r =>
    obtain ⟨x, s⟩ := r
    simp only [finish, readWhole, enclose, Except.map]
    rcases closeArray s with ⟨r, _ | d⟩
    · dsimp only
      cases skipSpace r <;> rfl
    · rfl

theorem readWhole_readList (item : Reader α) {text r : Text} (h : skipSpace text = '[' :: r) :
    readWhole (readList item) text = finish text (items item (r.length + 1) true r) := by
  rw [finish, readWhole, readWhole, readList]
  simp only [h, arrayOf]

end

/-- How the entries read from a place and the parts read from it compare. -/
inductive Compares (fuel : Nat) (first : Bool) (s : Text) : Prop where
  /-- Both are read, and the entries are lowered to the parts. -/
  | both {xs : List Entry} {ps : List Part} {t : Text}
    (hentries : items readEntry fuel first s = .ok (xs, t)) (hlower : xs.mapM Entry.lower = .ok ps)
    (hparts : items readPart fuel first s = .ok (ps, t))
  /-- Both stop at the same fault. -/
  | fault {f : Fault} (hentries : items readEntry fuel first s = .error f)
    (hparts : items readPart fuel first s = .error f)
  /-- The parts stop behind the first entry that is refused. -/
  | refused {left : Nat} {before : List Entry} {x : Entry} {e : QueryError} {u : Text}
    (hfuel : fuel = left + (before ++ [x]).length)
    (hleads : Leads readEntry first s (before ++ [x]) false u)
    (hbefore : ∀ y ∈ before, ∃ p, y.lower = .ok p) (hlower : x.lower = .error e)
    (hparts : items readPart fuel first s = .error (.refused e.message u))

theorem readPart_of_error {s : Text} {f : Fault} (h : readEntry s = .error f) :
    readPart s = .error f := by
  rw [readPart, h]

theorem readPart_of_refused {s r : Text} {x : Entry} {e : QueryError}
    (h : readEntry s = .ok (x, r)) (hlower : x.lower = .error e) :
    readPart s = .error (.refused e.message r) := by
  simp only [readPart, h, hlower]

theorem readPart_of_lower {s r : Text} {x : Entry} {p : Part} (h : readEntry s = .ok (x, r))
    (hlower : x.lower = .ok p) : readPart s = .ok (p, r) := by
  simp only [readPart, h, hlower]

/-- One of the three cases arises at every place. -/
theorem compares (fuel : Nat) (first : Bool) (s : Text) : Compares fuel first s := by
  induction fuel generalizing first s with
  | zero => exact .fault rfl rfl
  | succ fuel ih =>
    cases hnext : nextItem first s with
    | error f => exact .fault (items_of_nextItem_error hnext) (items_of_nextItem_error hnext)
    | ok next =>
      obtain ⟨_ | _, t⟩ := next
      · exact .both (items_of_close hnext) rfl (items_of_close hnext)
      · cases hitem : readEntry t with
        | error f =>
          exact .fault (items_of_item_error hnext hitem)
            (items_of_item_error hnext (readPart_of_error hitem))
        | ok r =>
          obtain ⟨x, u⟩ := r
          cases hlower : x.lower with
          | error e =>
            exact .refused rfl (.cons hnext hitem .nil) (List.forall_mem_nil _) hlower
              (items_of_item_error hnext (readPart_of_refused hitem hlower))
          | ok p =>
            -- Both go on behind the entry, so what holds from there on decides.
            have hentries : items readEntry (fuel + 1) first s = _ := items_of_item hnext hitem
            have hparts : items readPart (fuel + 1) first s = _ :=
              items_of_item hnext (readPart_of_lower hitem hlower)
            rcases ih false u with @⟨xs, ps, v, hx, hl, hp⟩ | ⟨hx, hp⟩ |
              @⟨left, before, y, e, v, hfuel, hleads, hbefore, hl, hp⟩
            · have hcons : (x :: xs).mapM Entry.lower = .ok (p :: ps) := by
                rw [List.mapM_cons, hlower, hl]
                rfl
              rw [hx] at hentries
              rw [hp] at hparts
              exact .both hentries hcons hparts
            · rw [hx] at hentries
              rw [hp] at hparts
              exact .fault hentries hparts
            · have hfuel' : fuel + 1 = left + (x :: before ++ [y]).length := by
                rw [List.cons_append, List.length_cons, hfuel, Nat.add_assoc]
              rw [hp] at hparts
              exact .refused hfuel' (.cons hnext hitem hleads)
                (List.forall_mem_cons.mpr ⟨⟨p, hlower⟩, hbefore⟩) hl hparts

/-- The fault shows the error: its message begins with the words of the error. Words that end with a
place, which only the name of an unknown type may bring along, are shown up to that place, and the
place is the one that the message ends with unless its line is zero. -/
structure Shows (d : Json.Error) (e : QueryError) : Prop where
  /-- Words that end with no place are shown in full. -/
  whole : (∀ before p, ¬EndsWithPlace e.message before p) → e.message <+: d.message
  /-- Of other words, those before the place are shown. -/
  cut : ∀ before p, EndsWithPlace e.message before p → before <+: d.message
  /-- A place with a line is shown behind them, without zeros in front of its numbers. -/
  place : ∀ before p, EndsWithPlace e.message before p → p.line ≠ 0 →
    d.message = before ++ placeText (Text.ofNat p.line) (Text.ofNat p.column)
  /-- Only the name of an unknown type ends with a place. -/
  unknown : ∀ before p, EndsWithPlace e.message before p → ∃ type, e = .unknownPartType type

/-- The refusal of an entry shows why the entry cannot be lowered. -/
theorem shows_refused {x : Entry} {e : QueryError} (h : x.lower = .error e) (rest text : Text)
    (close : Text → Text) :
    Shows (((Fault.refused e.message rest).settle close).inText text) e where
  whole hn := by
    rw [Json.Error.message_eq, Fault.cause_refused hn]
    exact List.prefix_append ..
  cut before p hp := by
    rw [Json.Error.message_eq, (Fault.refused_of_endsWithPlace hp rest text close).1]
    exact List.prefix_append ..
  place before p hp hline := by
    obtain ⟨hcause, hposition⟩ := Fault.refused_of_endsWithPlace hp rest text close
    rw [Json.Error.message_eq, hcause, hposition hline]
    rfl
  unknown before p hp := by
    rcases isRefusal_or_of_lower h with ⟨k, -, problem, rfl, hword⟩ | ⟨-, rfl⟩
    · exact absurd hp (not_endsWithPlace_of_endsInWord (endsInWord_append _ hword) before p)
    · exact ⟨_, rfl⟩

/-- The entries are read in full from the front of the form, and the fault is found behind them. -/
def Precede (xs : List Entry) (text : Text) (d : Json.Error) : Prop :=
  ∃ r rest left, skipSpace text = '[' :: r ∧ Leads readEntry true r xs false rest ∧
    r.length + 1 = left + xs.length ∧ finish text (items readEntry left false rest) = .error d

/-- How the two ways of reading a form compare. -/
inductive Agrees (text : Text) : Prop where
  /-- Both give the same parts. -/
  | same {ps : List Part} (hparts : parts text = .ok ps) (hatOnce : partsAtOnce text = .ok ps)
  /-- Both stop at the same fault. -/
  | fault {d : Json.Error} (hparts : parts text = .error (.json d))
    (hatOnce : partsAtOnce text = .error (.json d))
  /-- Reading at once stops at the first entry that is refused; the entries behind it are read or
  hold a fault. -/
  | refused {before : List Entry} {x : Entry} {e : QueryError} {d : Json.Error}
    (hbefore : ∀ y ∈ before, ∃ p, y.lower = .ok p) (hlower : x.lower = .error e)
    (hatOnce : partsAtOnce text = .error (.json d)) (hshows : Shows d e)
    (hbehind : (∃ after, readWhole (readList readEntry) text = .ok (before ++ x :: after)) ∨
      ∃ f, readWhole (readList readEntry) text = .error f ∧ Precede (before ++ [x]) text f)

theorem parts_of_error {text : Text} {d : Json.Error}
    (h : readWhole (readList readEntry) text = .error d) : parts text = .error (.json d) := by
  rw [parts, h]

theorem parts_of_ok {text : Text} {xs : List Entry}
    (h : readWhole (readList readEntry) text = .ok xs) : parts text = xs.mapM Entry.lower := by
  rw [parts, h]

theorem partsAtOnce_of_error {text : Text} {d : Json.Error}
    (h : readWhole (readList readPart) text = .error d) : partsAtOnce text = .error (.json d) := by
  rw [partsAtOnce, h]

/-- What is no array is refused whatever its elements would be. -/
theorem exists_readList_eq_error {text : Text} (h : ∀ r, skipSpace text ≠ '[' :: r) :
    ∃ f, readList readEntry text = .error f ∧ readList readPart text = .error f := by
  simp only [readList]
  split
  · exact ⟨_, rfl, rfl⟩
  · next r hr => exact absurd hr (h r)
  · exact ⟨_, rfl, rfl⟩

/-- The two ways of reading a form compare in one of these ways. -/
theorem agrees (text : Text) : Agrees text := by
  by_cases harray : ∃ r, skipSpace text = '[' :: r
  · obtain ⟨r, hr⟩ := harray
    have hentries := readWhole_readList readEntry hr
    have hparts := readWhole_readList readPart hr
    rcases compares (r.length + 1) true r with @⟨xs, ps, t, hx, hl, hp⟩ | @⟨f, hx, hp⟩ |
      @⟨left, before, x, e, u, hfuel, hleads, hbefore, hl, hp⟩
    · -- What is left behind the elements decides, and it is the same for both.
      have hx' : finish text (.ok (xs, t)) = (finish text (.ok ((), t))).map fun _ => xs :=
        finish_map text (.ok ((), t)) fun _ => xs
      have hp' : finish text (.ok (ps, t)) = (finish text (.ok ((), t))).map fun _ => ps :=
        finish_map text (.ok ((), t)) fun _ => ps
      rw [hx, hx'] at hentries
      rw [hp, hp'] at hparts
      cases hend : finish text (.ok ((), t)) with
      | error d =>
        rw [hend] at hentries hparts
        exact .fault (parts_of_error hentries) (partsAtOnce_of_error hparts)
      | ok _ =>
        rw [hend] at hentries hparts
        refine .same ((parts_of_ok hentries).trans hl) ?_
        rw [partsAtOnce, hparts]
        rfl
    · rw [hx] at hentries
      rw [hp] at hparts
      exact .fault (parts_of_error hentries) (partsAtOnce_of_error hparts)
    · rw [hp] at hparts
      have hrest : finish text ((items readEntry left false u).map (prepend (before ++ [x]))) =
          (finish text (items readEntry left false u)).map (before ++ [x] ++ ·) :=
        finish_map text (items readEntry left false u) (before ++ [x] ++ ·)
      rw [hfuel, hleads.items_eq left, hrest] at hentries
      refine .refused hbefore hl (partsAtOnce_of_error hparts) (shows_refused hl u text _) ?_
      cases hend : finish text (items readEntry left false u) with
      | error f =>
        rw [hend] at hentries
        exact Or.inr ⟨f, hentries, r, u, left, hr, hleads, hfuel, hend⟩
      | ok after =>
        rw [hend] at hentries
        refine Or.inl ⟨after, hentries.trans ?_⟩
        rw [List.append_cons before x after]
        rfl
  · obtain ⟨f, hx, hp⟩ := exists_readList_eq_error fun r hr => harray ⟨r, hr⟩
    have hentries : readWhole (readList readEntry) text = .error (f.inText text) := by
      rw [readWhole, hx]
    have hparts : readWhole (readList readPart) text = .error (f.inText text) := by
      rw [readWhole, hp]
    exact .fault (parts_of_error hentries) (partsAtOnce_of_error hparts)

/-- The first entry that is refused decides, where all entries are read. -/
theorem parts_of_refused {text : Text} {before after : List Entry} {x : Entry} {e : QueryError}
    (h : readWhole (readList readEntry) text = .ok (before ++ x :: after))
    (hbefore : ∀ y ∈ before, ∃ p, y.lower = .ok p) (hlower : x.lower = .error e) :
    parts text = .error e :=
  (parts_of_ok h).trans (mapM_eq_error_iff.mpr ⟨before, x, after, rfl, hbefore, hlower⟩)

theorem ne_json_of_lower {x : Entry} {e : QueryError} (h : x.lower = .error e) (d : Json.Error) :
    e ≠ .json d := by
  rcases isRefusal_or_of_lower h with ⟨k, -, problem, rfl, -⟩ | ⟨-, rfl⟩ <;> exact nofun

/-- Reading a form at once gives the parts that reading it whole gives, and for the same forms.
Where an entry is the first that cannot be lowered, reading at once stops there with a fault that
shows why. Where the text is at fault, reading at once stops at the same fault, or at an entry
before it that cannot be lowered. -/
theorem partsAtOnce_agrees (text : Text) :
    (∀ ps, partsAtOnce text = .ok ps ↔ parts text = .ok ps) ∧
    (∀ e, parts text = .error e → (∀ d, e ≠ .json d) →
      ∃ before x after d, readWhole (readList readEntry) text = .ok (before ++ x :: after) ∧
        (∀ y ∈ before, ∃ p, y.lower = .ok p) ∧ x.lower = .error e ∧
        ((∃ k problem, e = .invalidInput k problem) ∨ ∃ type, e = .unknownPartType type) ∧
        partsAtOnce text = .error (.json d) ∧ Shows d e) ∧
    ∀ d, parts text = .error (.json d) →
      partsAtOnce text = .error (.json d) ∨
      ∃ before x e d', Precede (before ++ [x]) text d ∧
        (∀ y ∈ before, ∃ p, y.lower = .ok p) ∧ x.lower = .error e ∧
        partsAtOnce text = .error (.json d') ∧ Shows d' e := by
  rcases agrees text with @⟨ps, hparts, hatOnce⟩ | @⟨d, hparts, hatOnce⟩ |
    @⟨before, x, e, d, hbefore, hlower, hatOnce, hshows, hbehind⟩
  · rw [hparts, hatOnce]
    refine ⟨fun _ => Iff.rfl, fun e he => ?_, fun d hd => ?_⟩
    · cases he
    · cases hd
  · rw [hparts, hatOnce]
    refine ⟨fun _ => Iff.rfl, fun e he hn => ?_, fun f hf => Or.inl hf⟩
    exact absurd (Except.error.inj he).symm (hn d)
  · rw [hatOnce]
    rcases hbehind with ⟨after, hread⟩ | ⟨f, hread, hprecede⟩
    · rw [parts_of_refused hread hbefore hlower]
      refine ⟨fun ps => ⟨nofun, nofun⟩, fun e' he _ => ?_, fun f hf => ?_⟩
      · obtain rfl := Except.error.inj he
        refine ⟨before, x, after, d, hread, hbefore, hlower, ?_, rfl, hshows⟩
        rcases isRefusal_or_of_lower hlower with ⟨k, -, problem, he, -⟩ | ⟨-, he⟩
        · exact Or.inl ⟨k, problem, he⟩
        · exact Or.inr ⟨_, he⟩
      · exact absurd (Except.error.inj hf) (ne_json_of_lower hlower f)
    · rw [parts_of_error hread]
      refine ⟨fun ps => ⟨nofun, nofun⟩, fun e' he hn => ?_, fun f' hf => Or.inr ?_⟩
      · exact absurd (Except.error.inj he).symm (hn f)
      · obtain rfl := QueryError.json.inj (Except.error.inj hf)
        exact ⟨before, x, e, d, hprecede, hbefore, hlower, rfl, hshows⟩

/-- A form without a fault, one with an unknown type before a part that lacks its input, and one
with an unknown type before a comma too many. -/
theorem partsAtOnce_agrees_unknown :
    let sound : Text := "[[\"site\",\"a\"]]".toList
    let early : Text := "[[\"text\",\"a\"],[\"shop\"],[\"site\"]]".toList
    let broken : Text := "[[\"shop\"],]".toList
    let unknown : QueryError := .unknownPartType "shop".toList
    let comma : Json.Error := ⟨.trailingComma, ⟨1, 11⟩⟩
    (parts sound = .ok [.site "a".toList] ∧ partsAtOnce sound = .ok [.site "a".toList]) ∧
    (parts early = .error unknown ∧ (∀ d, unknown ≠ .json d) ∧
      ∃ (x : Entry) (d : Json.Error), x.lower = .error unknown ∧
        partsAtOnce early = .error (.json d) ∧ Shows d unknown) ∧
    parts broken = .error (.json comma) ∧
      (partsAtOnce broken = .error (.json comma) ∨
        ∃ before x e d, Precede (before ++ [x]) broken comma ∧ x.lower = .error e ∧
          partsAtOnce broken = .error (.json d) ∧ Shows d e) := by
  intro sound early broken unknown comma
  have hsound : parts sound = .ok [.site "a".toList] := by decide +kernel
  have hearly : parts early = .error unknown := by decide +kernel
  have hbroken : parts broken = .error (.json comma) := by decide +kernel
  have hunknown : ∀ d, unknown ≠ .json d := nofun
  refine ⟨⟨hsound, ((partsAtOnce_agrees sound).1 _).mpr hsound⟩, ⟨hearly, hunknown, ?_⟩,
    hbroken, ?_⟩
  · obtain ⟨-, x, -, d, -, -, hlower, -, hatOnce, hshows⟩ :=
      (partsAtOnce_agrees early).2.1 unknown hearly hunknown
    exact ⟨x, d, hlower, hatOnce, hshows⟩
  · rcases (partsAtOnce_agrees broken).2.2 comma hbroken with
      hsame | ⟨before, x, e, d, hprecede, -, hlower, hatOnce, hshows⟩
    · exact Or.inl hsame
    · exact Or.inr ⟨before, x, e, d, hprecede, hlower, hatOnce, hshows⟩

/-- An unknown type that ends with a place of line zero loses that end when it is refused at
once. -/
theorem partsAtOnce_cuts_type :
    let form : Text := "[\x7b\"type\":\"x at line 0 column 0\"\x7d]".toList
    let e : QueryError := .unknownPartType "x at line 0 column 0".toList
    let d : Json.Error := ⟨.refused "Unknown part type: x".toList, ⟨1, 33⟩⟩
    parts form = .error e ∧ partsAtOnce form = .error (.json d) ∧ ¬e.message <+: d.message := by
  decide +kernel

end JobSearch.Form
