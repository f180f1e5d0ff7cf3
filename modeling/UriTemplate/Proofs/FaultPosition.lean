import UriTemplate.Proofs.Concatenation
import UriTemplate.Proofs.Reading.Lookahead

namespace UriTemplate

open Grammar

namespace Parser

theorem readParts_of_fault {a rest : Text} {ps : List Part} {f : Fault} (ha : Template a ps)
    (h : readExpression rest = .error f) : readParts (a ++ .char '{' :: rest) = .error f := by
  rw [readParts_append ha, readParts_brace, h]
  rfl

theorem halts_of_error {s : Text} {p : Nat} {r : Reason}
    (h : parse s = .error (.invalidTemplate s ⟨p, r⟩)) :
    ∃ a ps front u, s = a ++ .char '{' :: (front ++ u) ∧ p = a.length + 1 + front.length ∧
      Template a ps ∧ readExpression (front ++ u) = .error ⟨r, u⟩ ∧
      Halts readExpression (fun t e => Braced (.char '{' :: t ++ [.char '}']) e) front ⟨r, u⟩ := by
  rw [parse, Part.parse] at h
  cases hf : readParts s with
  | ok ps => simp [hf] at h
  | error f =>
      simp only [hf, Outcome.mapError_error, Except.error.injEq, Error.invalidTemplate.injEq,
        true_and, ParseError.mk.injEq] at h
      obtain ⟨rfl, rfl⟩ := h
      obtain ⟨a, ps, rest, rfl, ha, he⟩ := exists_readExpression_error hf
      obtain ⟨front, rfl, hh⟩ := halts_readExpression he
      refine ⟨a, ps, front, f.unread, rfl, ?_, ha, he, hh⟩
      simp only [List.length_append, List.length_cons]
      omega

end Parser

theorem parse_of_fault {a front u : Text} {ps : List Part} {r : Reason} (ha : Template a ps)
    (h : Parser.readExpression (front ++ u) = .error ⟨r, u⟩) :
    parse (a ++ .char '{' :: (front ++ u)) = .error
      (.invalidTemplate (a ++ .char '{' :: (front ++ u))
      ⟨a.length + 1 + front.length, r⟩) := by
  have hlen : (a ++ .char '{' :: (front ++ u)).length - u.length = a.length + 1 + front.length := by
    simp only [List.length_append, List.length_cons]
    omega
  rw [parse, Part.parse, Parser.readParts_of_fault ha h]
  simp only [hlen, Outcome.mapError_error]

theorem exists_parse_of_halts {a front : Text} {ps : List Part} {f : Parser.Fault}
    (ha : Template a ps) (h : Parser.Halts Parser.readExpression
      (fun t e => Braced (.char '{' :: t ++ [.char '}']) e) front f) :
    (∃ t qs, parse (a ++ .char '{' :: front ++ t) = .ok qs) ↔ ¬ Parser.Spent f.reason front := by
  constructor
  · rintro ⟨t, qs, hq⟩ hs
    obtain ⟨g, hg⟩ := (h.stuck hs).2 t
    have he := Parser.readParts_of_fault ha hg
    rw [List.append_assoc, List.cons_append, parse_eq_ok_iff, ← Parser.readParts_eq_ok_iff,
      he] at hq
    contradiction
  · intro hs
    obtain ⟨w, e, he⟩ := h.goesOn hs
    have hb := Part.parse_eq_ok_iff.2 (.expression he .nil)
    have hab := Part.parse_append (Part.parse_eq_ok_iff.2 ha) hb
    refine ⟨w ++ [.char '}'], Part.meld ps [.expression e], ?_⟩
    rw [parse_eq_ok_iff, ← Part.parse_eq_ok_iff, ← hab]
    simp

/-- What stands behind `c` and before the end of `front` is in `front`. -/
theorem mem_front_of_getElem? {a front u : Text} {c d : CodePoint} {i : Nat} (hi : a.length < i)
    (hp : i < a.length + 1 + front.length) (h : (a ++ c :: (front ++ u))[i]? = some d) :
    d ∈ front := by
  obtain ⟨k, rfl⟩ := Nat.exists_eq_add_of_lt hi
  have hk : k < front.length := by omega
  rw [Nat.add_assoc, List.getElem?_append_right (Nat.le_add_right _ _), Nat.add_sub_cancel_left,
    List.getElem?_cons_succ, List.getElem?_append_left hk] at h
  exact List.mem_of_getElem? h

/-- A text that is no template is refused at a place in it. The last brace before that place begins
an expression that is refused alike when it is read alone, all before it is a template, and the text
can be gone on with from that place, unless a length has used up its four digits. -/
theorem parse_error_points_at_fault {s : Text} {p : Nat} {r : Reason}
    (h : parse s = .error (.invalidTemplate s ⟨p, r⟩)) :
    0 < p ∧ p ≤ s.length ∧
    (∃ q < p, s[q]? = some (.char '{') ∧ (∀ i, q < i → i < p → s[i]? ≠ some (.char '{')) ∧
      (∃ ps, parse (s.take q) = .ok ps) ∧
      parse (s.drop q) = .error (.invalidTemplate (s.drop q) ⟨p - q, r⟩)) ∧
    ((∃ t ps, parse (s.take p ++ t) = .ok ps) ↔ r ≠ .lengthTooLong ∧
      ¬ (r = .lengthNotPositive ∧ List.replicate 4 (.char '0') <:+ s.take p)) := by
  obtain ⟨a, ps, front, u, rfl, rfl, ha, he, hh⟩ := Parser.halts_of_error h
  have htake : (a ++ .char '{' :: (front ++ u)).take (a.length + 1 + front.length) =
      a ++ .char '{' :: front := by
    rw [← List.cons_append, ← List.append_assoc]
    apply List.take_left'
    simp only [List.length_append, List.length_cons]
    omega
  have hspent : Parser.Spent r (a ++ .char '{' :: front) ↔ Parser.Spent r front :=
    ⟨Parser.Spent.of_append_cons (by decide), fun hs => (hs.append [.char '{']).append a⟩
  refine ⟨by omega, ?_, ⟨a.length, by omega, by simp, fun i hi hp hb => ?_, ⟨ps, ?_⟩, ?_⟩, ?_⟩
  · simp only [List.length_append, List.length_cons]
    omega
  · exact hh.notMem (mem_front_of_getElem? hi hp hb)
  · rw [List.take_left' rfl]
    exact parse_eq_ok_iff.2 ha
  · have hb := parse_of_fault .nil he
    have hpos : a.length + 1 + front.length - a.length =
        ([] : Text).length + 1 + front.length := by
      rw [List.length_nil]
      omega
    rw [List.drop_left' rfl, hpos]
    exact hb
  · rw [htake, exists_parse_of_halts ha hh, ← hspent, Parser.Spent, not_or]

/-- Two zeros can still become a length. -/
theorem parse_error_points_at_fault_zeros :
    let s := Text.of "a{b}{c,d:00}"
    parse s = .error (.invalidTemplate s ⟨11, .lengthNotPositive⟩) ∧
    (∃ q < 11, s[q]? = some (.char '{') ∧ (∃ ps, parse (s.take q) = .ok ps) ∧
      parse (s.drop q) = .error (.invalidTemplate (s.drop q) ⟨11 - q, .lengthNotPositive⟩)) ∧
    ∃ t ps, parse (s.take 11 ++ t) = .ok ps := by
  intro s
  have h : parse s = .error (.invalidTemplate s ⟨11, .lengthNotPositive⟩) := by decide +kernel
  obtain ⟨-, -, ⟨q, hq, hb, -, hbefore, hafter⟩, hgoesOn⟩ := parse_error_points_at_fault h
  exact ⟨h, ⟨q, hq, hb, hbefore, hafter⟩, hgoesOn.2 ⟨by decide, by decide⟩⟩

theorem exists_append_of_take_eq {b u s : Text} {n : Nat} (hn : n ≤ u.length)
    (h : s.take (b.length + n) = (b ++ u).take (b.length + n)) :
    ∃ w, s = b ++ w ∧ w.take n = u.take n := by
  have hs := List.take_append_drop (b.length + n) s
  rw [h, List.take_length_add_append, List.append_assoc] at hs
  exact ⟨_, hs.symm, List.take_left' (List.length_take_of_le hn)⟩

/-- A refusal is the same for every text that agrees as far as its reason reaches. -/
theorem parse_error_of_reach {s s' : Text} {p n : Nat} {r : Reason}
    (h : parse s = .error (.invalidTemplate s ⟨p, r⟩)) (hr : Parser.reach r ≤ n)
    (hn : p + n ≤ s.length) (hs : s'.take (p + n) = s.take (p + n)) :
    parse s' = .error (.invalidTemplate s' ⟨p, r⟩) := by
  obtain ⟨a, ps, front, u, rfl, rfl, ha, -, hh⟩ := Parser.halts_of_error h
  have hlen : (a ++ .char '{' :: front).length = a.length + 1 + front.length := by
    simp only [List.length_append, List.length_cons]
    omega
  have hu : n ≤ u.length := by
    simp only [List.length_append, List.length_cons] at hn
    omega
  rw [← List.cons_append, ← List.append_assoc, ← hlen] at hs
  obtain ⟨w, rfl, hw⟩ := exists_append_of_take_eq hu hs
  have halike : Parser.Alike r u w := by
    refine ⟨Nat.le_trans hr hu, ?_⟩
    have htake := congrArg (List.take (Parser.reach r)) hw
    rwa [List.take_take, List.take_take, Nat.min_eq_left hr] at htake
  rw [List.append_assoc]
  exact parse_of_fault ha (hh.again w halike)

/-- Where a text is refused depends on no more than three characters from there on, and for most
reasons on one. -/
theorem parse_error_of_take_eq {s : Text} {p : Nat} {r : Reason}
    (h : parse s = .error (.invalidTemplate s ⟨p, r⟩)) (s' : Text) :
    (p + 3 ≤ s.length → s'.take (p + 3) = s.take (p + 3) →
      parse s' = .error (.invalidTemplate s' ⟨p, r⟩)) ∧
    (r ≠ .malformedPercent → p + 1 ≤ s.length → s'.take (p + 1) = s.take (p + 1) →
      parse s' = .error (.invalidTemplate s' ⟨p, r⟩)) := by
  constructor
  · intro hn hs
    apply parse_error_of_reach h _ hn hs
    cases r <;> simp [Parser.reach]
  · intro hr hn hs
    apply parse_error_of_reach h _ hn hs
    cases r with
    | malformedPercent => contradiction
    | _ => exact Nat.le_refl 1

/-- Three characters decide behind a percent sign, and one where a name goes wrong. -/
theorem parse_error_of_take_eq_percent :
    let s := Text.of "x{a%4z}"
    let s' := Text.of "x\x7ba%4zoo"
    let t := Text.of "{a b}"
    let t' := Text.of "{a }{b}"
    (parse s = .error (.invalidTemplate s ⟨3, .malformedPercent⟩) ∧
      parse s' = .error (.invalidTemplate s' ⟨3, .malformedPercent⟩)) ∧
    parse t = .error (.invalidTemplate t ⟨2, .unexpected (.char ' ')⟩) ∧
    parse t' = .error (.invalidTemplate t' ⟨2, .unexpected (.char ' ')⟩) := by
  intro s s' t t'
  have hs : parse s = .error (.invalidTemplate s ⟨3, .malformedPercent⟩) := by decide +kernel
  have ht : parse t = .error (.invalidTemplate t ⟨2, .unexpected (.char ' ')⟩) := by decide +kernel
  exact ⟨⟨hs, (parse_error_of_take_eq hs s').1 (by decide) rfl⟩, ht,
    (parse_error_of_take_eq ht t').2 (by decide) (by decide) rfl⟩

end UriTemplate
