import Chatterino.Filters.Grammar

/-! # What the grammar derives is parsed

By induction on the derivation. A loop stops because the token after its symbol is one that ends it.
-/

namespace Chatterino.Filters

open TokenType

theorem Derives.head_value {ts : List Token} {e : Expression} (h : Derives .value ts e) :
    ∃ token rest, ts = token :: rest ∧ startsValue token.type = true := by
  cases h <;> exact ⟨_, _, rfl, by simp_all [startsValue]⟩

theorem Derives.head_cond {ts : List Token} {e : Expression} (h : Derives .cond ts e) :
    ∃ token rest, ts = token :: rest ∧ startsValue token.type = true := by
  cases h with
  | cond hValue hOperators =>
    obtain ⟨token, rest, rfl, hStarts⟩ := hValue.head_value
    exact ⟨token, _, rfl, hStarts⟩

theorem Derives.head_ors {e e' : Expression} {ts : List Token} (h : Derives (.ors e) ts e') :
    ∀ token ∈ ts.head?, token.type = .OR := by
  cases h with
  | orsNil => simp
  | orsCons hOr hAnd hOrs => simpa using hOr

theorem Derives.head_ands {e e' : Expression} {ts : List Token} (h : Derives (.ands e) ts e') :
    ∀ token ∈ ts.head?, token.type = .AND := by
  cases h with
  | andsNil => simp
  | andsCons hAnd hUnary hAnds => simpa using hAnd

theorem stops_append {stops stops' : TokenType → Bool} {first : TokenType} {ts rest : List Token}
    (hFirst : ∀ token ∈ ts.head?, token.type = first) (hStops : stops first = true)
    (hRest : ∀ token ∈ rest.head?, stops' token.type = true)
    (hMono : ∀ type, stops' type = true → stops type = true) :
    ∀ token ∈ (ts ++ rest).head?, stops token.type = true := by
  cases ts with
  | nil => exact fun token hToken => hMono _ (hRest token hToken)
  | cons t ts =>
    intro token hToken
    obtain rfl : t = token := by simpa using hToken
    rw [hFirst t rfl]
    exact hStops

theorem parseOperators_of_stops {fuel : Nat} {e : Expression} {p : ParserState}
    (h : ∀ token ∈ p.rest.head?, Symbol.cond.stops token.type = true) :
    parseOperators (fuel + 1) e p = some (e, p) := by
  unfold parseOperators
  split
  · rename_i token rest hRest
    have hToken := h token (by simp [hRest])
    simp only [Symbol.stops, Bool.or_eq_true, beq_iff_eq] at hToken
    rcases hToken with (hType | hType) | hType <;> rw [hType] <;> rfl
  · rfl

theorem exists_fuel {symbol : Symbol} {length fuel : Nat} (h : length + symbol.depth ≤ fuel) : ∃ n, fuel = n + 1 :=
  ⟨fuel - 1, by cases symbol <;> simp only [Symbol.depth] at h <;> omega⟩

theorem Derives.parse_eq {symbol : Symbol} {ts : List Token} {e : Expression}
    (h : Derives symbol ts e) (fuel : Nat) (rest : List Token) (valid_ : Bool)
    (parseLog_ : List QString) (hFuel : 6 * ts.length + symbol.depth ≤ fuel)
    (hRest : ∀ token ∈ rest.head?, symbol.stops token.type = true) :
    symbol.parse fuel ⟨ts ++ rest, valid_, parseLog_⟩ = some (e, ⟨rest, valid_, parseLog_⟩) := by
  induction h generalizing fuel rest with
  | @expr ts ts' e e' hAnd hOrs ihAnd ihOrs =>
    obtain ⟨fuel, rfl⟩ := exists_fuel hFuel
    simp only [List.length_append, Symbol.depth] at hFuel ihAnd ihOrs
    have hStep := ihAnd fuel (ts' ++ rest) (by omega)
      (stops_append hOrs.head_ors rfl hRest (by simp [Symbol.stops]))
    have hLoop := ihOrs fuel rest (by omega) hRest
    simp only [Symbol.parse, List.append_assoc] at hStep hLoop ⊢
    simp only [parseExpression, hStep, hLoop, Option.bind_eq_bind, Option.bind_some]
    cases rest <;> rfl
  | orsNil =>
    obtain ⟨fuel, rfl⟩ := exists_fuel hFuel
    simp only [Symbol.depth] at hFuel
    cases rest with
    | nil => rfl
    | cons token rest =>
      have hType : token.type = .RP := by simpa [Symbol.stops] using hRest token rfl
      simp [Symbol.parse, parseOrs, hType]
  | @orsCons e token ts ts' e' e'' hOr hAnd hOrs ihAnd ihOrs =>
    obtain ⟨fuel, rfl⟩ := exists_fuel hFuel
    simp only [List.length_append, List.length_cons, Symbol.depth] at hFuel ihAnd ihOrs
    have hStep := ihAnd fuel (ts' ++ rest) (by omega)
      (stops_append hOrs.head_ors rfl hRest (by simp [Symbol.stops]))
    have hLoop := ihOrs fuel rest (by omega) hRest
    simp only [Symbol.parse, List.cons_append, List.append_assoc] at hStep hLoop ⊢
    simp only [parseOrs, hOr, if_true, hStep, hLoop, Option.bind_eq_bind, Option.bind_some]
  | @and ts ts' e e' hUnary hAnds ihUnary ihAnds =>
    obtain ⟨fuel, rfl⟩ := exists_fuel hFuel
    simp only [List.length_append, Symbol.depth] at hFuel ihUnary ihAnds
    have hStep := ihUnary fuel (ts' ++ rest) (by omega)
      (stops_append hAnds.head_ands rfl hRest (by simp [Symbol.stops]))
    have hLoop := ihAnds fuel rest (by omega) hRest
    simp only [Symbol.parse, List.append_assoc] at hStep hLoop ⊢
    simp only [parseAnd, hStep, hLoop, Option.bind_eq_bind, Option.bind_some]
  | andsNil =>
    obtain ⟨fuel, rfl⟩ := exists_fuel hFuel
    simp only [Symbol.depth] at hFuel
    cases rest with
    | nil => rfl
    | cons token rest =>
      have hType : token.type = .RP ∨ token.type = .OR := by
        simpa [Symbol.stops] using hRest token rfl
      rcases hType with hType | hType <;> simp [Symbol.parse, parseAnds, hType]
  | @andsCons e token ts ts' e' e'' hAnd hUnary hAnds ihUnary ihAnds =>
    obtain ⟨fuel, rfl⟩ := exists_fuel hFuel
    simp only [List.length_append, List.length_cons, Symbol.depth] at hFuel ihUnary ihAnds
    have hStep := ihUnary fuel (ts' ++ rest) (by omega)
      (stops_append hAnds.head_ands rfl hRest (by simp [Symbol.stops]))
    have hLoop := ihAnds fuel rest (by omega) hRest
    simp only [Symbol.parse, List.cons_append, List.append_assoc] at hStep hLoop ⊢
    simp only [parseAnds, hAnd, if_true, hStep, hLoop, Option.bind_eq_bind, Option.bind_some]
  | @not token ts e hNot hCond ih =>
    obtain ⟨fuel, rfl⟩ := exists_fuel hFuel
    simp only [List.length_cons, Symbol.depth] at hFuel ih
    have hStep := ih fuel rest (by omega) hRest
    simp only [Symbol.parse, List.cons_append] at hStep ⊢
    simp only [parseUnary, hNot, typeIsUnaryOp_iff.mpr, if_true, hStep, Option.bind_eq_bind,
      Option.bind_some, Option.pure_def]
  | @unary ts e hCond ih =>
    obtain ⟨fuel, rfl⟩ := exists_fuel hFuel
    simp only [Symbol.depth] at hFuel ih
    have hStep := ih fuel rest (by omega) hRest
    obtain ⟨token, ts', rfl, hStarts⟩ := hCond.head_cond
    have hUnary := typeIsUnaryOp_of_startsValue hStarts
    simp only [Symbol.parse, List.cons_append] at hStep ⊢
    simp only [parseUnary, hUnary, hStep, Bool.false_eq_true, if_false]
  | @cond ts ts' e e' hValue hOperators ihValue ihOperators =>
    obtain ⟨fuel, rfl⟩ := exists_fuel hFuel
    simp only [List.length_append, Symbol.depth] at hFuel ihValue ihOperators
    have hLoop := ihOperators fuel rest (by omega) hRest
    simp only [Symbol.parse, List.append_assoc] at hLoop ⊢
    unfold parseCondition
    split <;> rename_i hLP
    · have hStep := ihValue (fuel + 1) (ts' ++ rest) (by omega) (by simp [Symbol.stops])
      rw [Symbol.parse, parseValue_of_LP hLP] at hStep
      simp only [hStep, hLoop, Option.bind_eq_bind, Option.bind_some]
    · have hStep := ihValue fuel (ts' ++ rest) (by omega) (by simp [Symbol.stops])
      rw [Symbol.parse] at hStep
      simp only [hStep, hLoop, Option.bind_eq_bind, Option.bind_some]
  | operatorsNil =>
    obtain ⟨fuel, rfl⟩ := exists_fuel hFuel
    simp only [Symbol.depth] at hFuel
    exact parseOperators_of_stops hRest
  | @mathOp e token ts ts' v e' hMath hValue hOperators ihValue ihOperators =>
    obtain ⟨fuel, rfl⟩ := exists_fuel hFuel
    simp only [List.length_append, List.length_cons, Symbol.depth] at hFuel ihValue ihOperators
    have hStep := ihValue fuel (ts' ++ rest) (by omega) (by simp [Symbol.stops])
    have hLoop := ihOperators fuel rest (by omega) hRest
    have hBinary := typeIsBinaryOp_of_typeIsMathOp hMath
    simp only [Symbol.parse, List.cons_append, List.append_assoc] at hStep hLoop ⊢
    simp only [parseOperators, hBinary, hMath, Bool.false_eq_true, if_false, if_true, hStep, hLoop,
      Option.bind_eq_bind, Option.bind_some]
  | @binaryOp e token ts v hBinary hValue ih =>
    obtain ⟨fuel, rfl⟩ := exists_fuel hFuel
    simp only [List.length_cons, Symbol.depth] at hFuel ih
    have hStep := ih fuel rest (by omega) (by simp [Symbol.stops])
    simp only [Symbol.parse, List.cons_append] at hStep ⊢
    simp only [parseOperators, hBinary, if_true, hStep, Option.bind_eq_bind, Option.bind_some,
      Option.pure_def]
  | int hType | string hType | identifier hType | regex hType =>
    obtain ⟨fuel, rfl⟩ := exists_fuel hFuel
    simp only [List.length_singleton, Symbol.depth] at hFuel
    simp [Symbol.parse, parseValue, hType]
  | @parentheses left ts right e hLeft hExpr hRight ih =>
    simp only [List.length_append, List.length_cons, List.length_nil, Symbol.depth] at hFuel ih
    obtain ⟨fuel, rfl⟩ : ∃ n, fuel = n + 2 := ⟨fuel - 2, by omega⟩
    have hStep := ih fuel (right :: rest) (by omega) (by simp [Symbol.stops, hRight])
    simp only [Symbol.parse] at hStep
    simp [Symbol.parse, parseValue, hLeft, parseParentheses, hStep, hRight]
  | @list left ts e hLeft hElements ih =>
    simp only [List.length_cons, Symbol.depth] at hFuel ih
    obtain ⟨fuel, rfl⟩ : ∃ n, fuel = n + 2 := ⟨fuel - 2, by omega⟩
    have hStep := ih fuel rest (by omega) (by simp [Symbol.stops])
    simp only [Symbol.parse] at hStep
    simp [Symbol.parse, parseValue, hLeft, parseList, hStep]
  | noElements hRight | elementsEnd hRight =>
    obtain ⟨fuel, rfl⟩ := exists_fuel hFuel
    simp only [List.length_singleton, Symbol.depth] at hFuel
    simp [Symbol.parse, parseElements, hRight]
  | @firstElement ts ts' v e hValue hMore ihValue ihMore =>
    obtain ⟨fuel, rfl⟩ := exists_fuel hFuel
    simp only [List.length_append, Symbol.depth] at hFuel ihValue ihMore
    have hStep := ihValue fuel (ts' ++ rest) (by omega) (by simp [Symbol.stops])
    obtain ⟨token, ts, rfl, hStarts⟩ := hValue.head_value
    have hLoop := ihMore fuel rest (by simp only [List.length_cons] at hFuel; omega) hRest
    have hEnd : token.type ≠ .LIST_END := by
      rintro hType
      simp [hType, startsValue] at hStarts
    simp only [Symbol.parse, List.cons_append, List.append_assoc] at hStep hLoop ⊢
    simp [parseElements, hEnd, hStep, hLoop]
  | @nextElement token ts ts' list v e hComma hValue hMore ihValue ihMore =>
    obtain ⟨fuel, rfl⟩ := exists_fuel hFuel
    simp only [List.length_append, List.length_cons, Symbol.depth] at hFuel ihValue ihMore
    have hStep := ihValue fuel (ts' ++ rest) (by omega) (by simp [Symbol.stops])
    have hLoop := ihMore fuel rest (by omega) hRest
    simp only [Symbol.parse, List.cons_append, List.append_assoc] at hStep hLoop ⊢
    simp [parseElements, hComma, hStep, hLoop]

end Chatterino.Filters
