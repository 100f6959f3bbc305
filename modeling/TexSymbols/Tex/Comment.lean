import TexSymbols.Text

/-!
# Comments

* `stripComment` — the part of a line before its comment.  A percent sign starts a comment unless the
  backslashes directly before it leave it escaped.
-/

namespace TexSymbols

/-- `stripComment` when an unpaired backslash stands right before the text (`escaped`) or not. -/
def stripCommentFrom : Bool → Text → Text
  | _, [] => []
  | escaped, '\\' :: r => '\\' :: stripCommentFrom (!escaped) r
  | escaped, '%' :: r => if escaped then '%' :: stripCommentFrom false r else []
  | _, c :: r => c :: stripCommentFrom false r

/-- The part of the line before its first unescaped percent sign, all of it if there is none. -/
def stripComment (line : Text) : Text := stripCommentFrom false line

/-- What is kept is the beginning of the line. -/
theorem stripCommentFrom_prefix (escaped : Bool) (t : Text) : stripCommentFrom escaped t <+: t := by
  fun_induction stripCommentFrom escaped t with
  | case1 => exact List.prefix_refl _
  | case2 _ _ ih => exact List.prefix_cons_inj _ |>.2 ih
  | case3 _ ih => exact List.prefix_cons_inj _ |>.2 ih
  | case4 => exact List.nil_prefix
  | case5 _ _ _ _ _ ih => exact List.prefix_cons_inj _ |>.2 ih

end TexSymbols
