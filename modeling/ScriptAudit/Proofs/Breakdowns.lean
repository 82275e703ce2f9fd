import Mathlib.Data.Set.List
import ScriptAudit.Proofs.CalmSources
import ScriptAudit.Proofs.FirstFaults
import ScriptAudit.Proofs.SlashLiterals

namespace ScriptAudit

namespace Pattern

section NotText

variable {items : List FlagItem} {x : FlagItem} (hx : x ∈ items) (hnot : ∀ s, x ≠ .text s)

include hx hnot

end NotText

theorem FlagTexts.unique {literal : Option (List Char)} {v : Value} {texts others : List String}
    (h : FlagTexts literal.isSome v texts) (h' : FlagTexts literal.isSome v others) : texts = others := by
  have heq := Except.ok.inj ((flagItems_of_texts h).symm.trans (flagItems_of_texts h'))
  have hinjective : FlagItem.text.Injective := fun s t hst => FlagItem.text.inj hst
  exact List.append_cancel_right (List.map_injective_iff.mpr hinjective heq)

end Pattern

namespace Draft

variable {d : Draft} {category : String}

end Draft

namespace Definition

variable {category : String}

end Definition

end ScriptAudit
