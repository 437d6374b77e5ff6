import Sproto.Outline.Basic
import Sproto.Proofs.Banner

/-! # Banners that are written again

The banner of a line is made from the content of the line alone, and the content is found again in the
banner (`content_banner`).  A content may begin or end with hash signs of its own, or be empty: one hash
sign on either side with a blank next to it is enough to keep it.  So a banner stays as it is when its own
banner is made, and it has the title of the line it was made from. -/
namespace Sproto

open Text

namespace Banner

theorem trim_content (line : Text) : trim (content line) = content line := trim_trim _

theorem not_mem_content {line : Text} {c : Char} (h : c ∉ line) : c ∉ content line := by
  refine not_mem_trim fun hend => not_mem_trim h ?_
  have hdrop := (List.rdropWhile_prefix isHash _).subset hend
  exact (List.dropWhile_sublist isHash).subset hdrop

end Banner

namespace Style

variable {s : Style} {line : Text}

/-- Nothing but its content is kept of a line. -/
theorem banner_congr {line' : Text} (h : Banner.content line = Banner.content line') :
    s.banner line = s.banner line' := by
  rw [banner, banner, h]

/-- **The content of a line is found again in its banner.** -/
theorem content_banner (hs : 1 ≤ s.bannerHashes) (line : Text) :
    Banner.content (s.banner line) = Banner.content line := by
  obtain ⟨n, hn, hframed⟩ := Banner.exists_banner_eq_framed s line
  rw [hframed, Banner.content_framed (by omega), Banner.trim_content]

theorem title_banner (hs : 1 ≤ s.bannerHashes) (line : Text) :
    Banner.title (s.banner line) = Banner.title line := by
  rw [Banner.title, content_banner hs, Banner.title]

/-- With four hash signs on either side a banner is read as one. -/
theorem read_banner (hs : 4 ≤ s.bannerHashes) (feed : '\n' ∉ line) :
    Shape.read (s.banner line) = .banner := by
  obtain ⟨n, hn, hframed⟩ := Banner.exists_banner_eq_framed s line
  rw [hframed]
  exact Banner.read_framed (by omega) (Banner.not_mem_content feed)

end Style

/-- In the outline a banner stands for a module with the banner's title. -/
theorem Outline.map_title_banner {t : Token} (h : t.shape = .banner) :
    (ofTokens [t]).groups.map Group.title = [Banner.title t.text] := by
  simp [ofTokens, Builder.step, h, Builder.finish, Builder.endDraft, Builder.endGroup, Builder.initial]

/-- **A banner is its own banner, and keeps the title of its line.**  With at least four hash signs on
either side it is read as a banner, and its module has that title in the outline. -/
theorem banner_keepsTitle (s : Style) (hs : 1 ≤ s.bannerHashes) (line : Text) :
    s.banner (s.banner line) = s.banner line ∧
      Banner.title (s.banner line) = Banner.title line ∧
      (4 ≤ s.bannerHashes → '\n' ∉ line →
        ∃ token, Token.ofLines? [s.banner line] = .ok [token] ∧ token.shape = .banner ∧
          (Outline.ofTokens [token]).groups.map Outline.Group.title = [Banner.title line]) := by
  refine ⟨Style.banner_congr (Style.content_banner hs line), Style.title_banner hs line, ?_⟩
  intro hfour feed
  have hshape : (Token.read 0 (s.banner line)).shape = .banner := by
    rw [Token.read_shape, Style.read_banner hfour feed]
  have hfault : (Token.read 0 (s.banner line)).fault? = none := by
    rw [Token.fault?, hshape]
    rfl
  refine ⟨Token.read 0 (s.banner line), Token.ofLines?_singleton hfault, hshape, ?_⟩
  rw [Outline.map_title_banner hshape, Token.read_text, Style.title_banner hs]

/-- A line whose content begins and ends with a hash sign and is too long for a wide frame. -/
def hashedLine : Text := " ##  # Messages that are sent before a session is open #  #\t".toList

/-- The line above in a style that asks for one hash sign on either side, and in one that asks for
four. -/
theorem banner_hashedLine :
    Style.banner ⟨4, 60, 1⟩ hashedLine =
        "# # Messages that are sent before a session is open # #".toList ∧
      Style.banner ⟨4, 60, 1⟩ (Style.banner ⟨4, 60, 1⟩ hashedLine) =
        Style.banner ⟨4, 60, 1⟩ hashedLine ∧
      Banner.title (Style.banner ⟨4, 60, 1⟩ hashedLine) = Banner.title hashedLine ∧
      ∃ token, Token.ofLines? [Style.banner ⟨4, 60, 4⟩ hashedLine] = .ok [token] ∧
        token.shape = .banner ∧
        (Outline.ofTokens [token]).groups.map Outline.Group.title =
          ["# Messages that are sent before a session is open #".toList] := by
  have hthin : Style.banner ⟨4, 60, 1⟩ hashedLine =
      "# # Messages that are sent before a session is open # #".toList := by decide +kernel
  have htitle : Banner.title hashedLine =
      "# Messages that are sent before a session is open #".toList := by decide +kernel
  obtain ⟨hagain, hkept, -⟩ := banner_keepsTitle ⟨4, 60, 1⟩ (by decide) hashedLine
  obtain ⟨-, -, hread⟩ := banner_keepsTitle ⟨4, 60, 4⟩ (by decide) hashedLine
  rw [← htitle]
  exact ⟨hthin, hagain, hkept, hread (by decide) (by decide +kernel)⟩

end Sproto
