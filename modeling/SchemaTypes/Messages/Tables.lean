/-
# Message tables

The messages that come with the generator: templates for the rules of an entity by rule and
locale, and the catalogue of messages of the internationalisation module.  A hole of a template
is a name in braces behind a dollar sign.
-/
import SchemaTypes.Schema.Config

namespace SchemaTypes.Messages

/-- Templates of the messages of rules. -/
def ruleTemplates : MessageTable := [
  ("required", [
    ("ja", "$\x7bdisplayName\x7dは必須です"),
    ("en", "$\x7bdisplayName\x7d is required"),
    ("vi", "$\x7bdisplayName\x7d là bắt buộc"),
    ("ko", "$\x7bdisplayName\x7d은(는) 필수입니다"),
    ("zh", "$\x7bdisplayName\x7d为必填项")]),
  ("minLength", [
    ("ja", "$\x7bdisplayName\x7dは$\x7bmin\x7d文字以上で入力してください"),
    ("en", "$\x7bdisplayName\x7d must be at least $\x7bmin\x7d characters"),
    ("vi", "$\x7bdisplayName\x7d phải có ít nhất $\x7bmin\x7d ký tự"),
    ("ko", "$\x7bdisplayName\x7d은(는) $\x7bmin\x7d자 이상이어야 합니다"),
    ("zh", "$\x7bdisplayName\x7d至少需要$\x7bmin\x7d个字符")]),
  ("maxLength", [
    ("ja", "$\x7bdisplayName\x7dは$\x7bmax\x7d文字以内で入力してください"),
    ("en", "$\x7bdisplayName\x7d must be at most $\x7bmax\x7d characters"),
    ("vi", "$\x7bdisplayName\x7d tối đa $\x7bmax\x7d ký tự"),
    ("ko", "$\x7bdisplayName\x7d은(는) $\x7bmax\x7d자 이하여야 합니다"),
    ("zh", "$\x7bdisplayName\x7d不能超过$\x7bmax\x7d个字符")]),
  ("min", [
    ("ja", "$\x7bdisplayName\x7dは$\x7bmin\x7d以上の値を入力してください"),
    ("en", "$\x7bdisplayName\x7d must be at least $\x7bmin\x7d"),
    ("vi", "$\x7bdisplayName\x7d phải lớn hơn hoặc bằng $\x7bmin\x7d"),
    ("ko", "$\x7bdisplayName\x7d은(는) $\x7bmin\x7d 이상이어야 합니다"),
    ("zh", "$\x7bdisplayName\x7d不能小于$\x7bmin\x7d")]),
  ("max", [
    ("ja", "$\x7bdisplayName\x7dは$\x7bmax\x7d以下の値を入力してください"),
    ("en", "$\x7bdisplayName\x7d must be at most $\x7bmax\x7d"),
    ("vi", "$\x7bdisplayName\x7d phải nhỏ hơn hoặc bằng $\x7bmax\x7d"),
    ("ko", "$\x7bdisplayName\x7d은(는) $\x7bmax\x7d 이하여야 합니다"),
    ("zh", "$\x7bdisplayName\x7d不能大于$\x7bmax\x7d")]),
  ("email", [
    ("ja", "$\x7bdisplayName\x7dの形式が正しくありません"),
    ("en", "$\x7bdisplayName\x7d is not a valid email address"),
    ("vi", "$\x7bdisplayName\x7d không phải là địa chỉ email hợp lệ"),
    ("ko", "$\x7bdisplayName\x7d 형식이 올바르지 않습니다"),
    ("zh", "$\x7bdisplayName\x7d不是有效的邮箱地址")]),
  ("url", [
    ("ja", "$\x7bdisplayName\x7dは有効なURLではありません"),
    ("en", "$\x7bdisplayName\x7d is not a valid URL"),
    ("vi", "$\x7bdisplayName\x7d không phải là URL hợp lệ"),
    ("ko", "$\x7bdisplayName\x7d은(는) 유효한 URL이 아닙니다"),
    ("zh", "$\x7bdisplayName\x7d不是有效的URL")]),
  ("pattern", [
    ("ja", "$\x7bdisplayName\x7dの形式が正しくありません"),
    ("en", "$\x7bdisplayName\x7d format is invalid"),
    ("vi", "$\x7bdisplayName\x7d không đúng định dạng"),
    ("ko", "$\x7bdisplayName\x7d 형식이 올바르지 않습니다"),
    ("zh", "$\x7bdisplayName\x7d格式不正确")]),
  ("enum", [
    ("ja", "$\x7bdisplayName\x7dの値が無効です"),
    ("en", "$\x7bdisplayName\x7d has an invalid value"),
    ("vi", "$\x7bdisplayName\x7d có giá trị không hợp lệ"),
    ("ko", "$\x7bdisplayName\x7d 값이 유효하지 않습니다"),
    ("zh", "$\x7bdisplayName\x7d的值无效")])]

/-- The messages of the internationalisation module. -/
def catalogue : MessageTable := [
  ("required", [
    ("en", "$\x7bdisplayName\x7d is required"),
    ("ja", "$\x7bdisplayName\x7dは必須です"),
    ("vi", "$\x7bdisplayName\x7d là bắt buộc"),
    ("ko", "$\x7bdisplayName\x7d은(는) 필수입니다"),
    ("zh-CN", "$\x7bdisplayName\x7d是必填项"),
    ("zh-TW", "$\x7bdisplayName\x7d為必填欄位"),
    ("th", "$\x7bdisplayName\x7d จำเป็นต้องกรอก"),
    ("es", "$\x7bdisplayName\x7d es obligatorio")]),
  ("minLength", [
    ("en", "$\x7bdisplayName\x7d must be at least $\x7bmin\x7d characters"),
    ("ja", "$\x7bdisplayName\x7dは$\x7bmin\x7d文字以上で入力してください"),
    ("vi", "$\x7bdisplayName\x7d phải có ít nhất $\x7bmin\x7d ký tự"),
    ("ko", "$\x7bdisplayName\x7d은(는) $\x7bmin\x7d자 이상이어야 합니다"),
    ("zh-CN", "$\x7bdisplayName\x7d至少需要$\x7bmin\x7d个字符"),
    ("zh-TW", "$\x7bdisplayName\x7d至少需要$\x7bmin\x7d個字元"),
    ("th", "$\x7bdisplayName\x7d ต้องมีอย่างน้อย $\x7bmin\x7d ตัวอักษร"),
    ("es", "$\x7bdisplayName\x7d debe tener al menos $\x7bmin\x7d caracteres")]),
  ("maxLength", [
    ("en", "$\x7bdisplayName\x7d must be at most $\x7bmax\x7d characters"),
    ("ja", "$\x7bdisplayName\x7dは$\x7bmax\x7d文字以内で入力してください"),
    ("vi", "$\x7bdisplayName\x7d không được quá $\x7bmax\x7d ký tự"),
    ("ko", "$\x7bdisplayName\x7d은(는) $\x7bmax\x7d자 이하여야 합니다"),
    ("zh-CN", "$\x7bdisplayName\x7d最多$\x7bmax\x7d个字符"),
    ("zh-TW", "$\x7bdisplayName\x7d最多$\x7bmax\x7d個字元"),
    ("th", "$\x7bdisplayName\x7d ต้องไม่เกิน $\x7bmax\x7d ตัวอักษร"),
    ("es", "$\x7bdisplayName\x7d debe tener como máximo $\x7bmax\x7d caracteres")]),
  ("min", [
    ("en", "$\x7bdisplayName\x7d must be at least $\x7bmin\x7d"),
    ("ja", "$\x7bdisplayName\x7dは$\x7bmin\x7d以上で入力してください"),
    ("vi", "$\x7bdisplayName\x7d phải lớn hơn hoặc bằng $\x7bmin\x7d"),
    ("ko", "$\x7bdisplayName\x7d은(는) $\x7bmin\x7d 이상이어야 합니다"),
    ("zh-CN", "$\x7bdisplayName\x7d必须大于等于$\x7bmin\x7d"),
    ("zh-TW", "$\x7bdisplayName\x7d必須大於等於$\x7bmin\x7d"),
    ("th", "$\x7bdisplayName\x7d ต้องมากกว่าหรือเท่ากับ $\x7bmin\x7d"),
    ("es", "$\x7bdisplayName\x7d debe ser al menos $\x7bmin\x7d")]),
  ("max", [
    ("en", "$\x7bdisplayName\x7d must be at most $\x7bmax\x7d"),
    ("ja", "$\x7bdisplayName\x7dは$\x7bmax\x7d以下で入力してください"),
    ("vi", "$\x7bdisplayName\x7d phải nhỏ hơn hoặc bằng $\x7bmax\x7d"),
    ("ko", "$\x7bdisplayName\x7d은(는) $\x7bmax\x7d 이하여야 합니다"),
    ("zh-CN", "$\x7bdisplayName\x7d必须小于等于$\x7bmax\x7d"),
    ("zh-TW", "$\x7bdisplayName\x7d必須小於等於$\x7bmax\x7d"),
    ("th", "$\x7bdisplayName\x7d ต้องน้อยกว่าหรือเท่ากับ $\x7bmax\x7d"),
    ("es", "$\x7bdisplayName\x7d debe ser como máximo $\x7bmax\x7d")]),
  ("email", [
    ("en", "Please enter a valid email address"),
    ("ja", "有効なメールアドレスを入力してください"),
    ("vi", "Vui lòng nhập địa chỉ email hợp lệ"),
    ("ko", "유효한 이메일 주소를 입력하세요"),
    ("zh-CN", "请输入有效的电子邮件地址"),
    ("zh-TW", "請輸入有效的電子郵件地址"),
    ("th", "กรุณากรอกอีเมลที่ถูกต้อง"),
    ("es", "Por favor, introduce una dirección de correo electrónico válida")]),
  ("url", [
    ("en", "Please enter a valid URL"),
    ("ja", "有効なURLを入力してください"),
    ("vi", "Vui lòng nhập URL hợp lệ"),
    ("ko", "유효한 URL을 입력하세요"),
    ("zh-CN", "请输入有效的URL"),
    ("zh-TW", "請輸入有效的網址"),
    ("th", "กรุณากรอก URL ที่ถูกต้อง"),
    ("es", "Por favor, introduce una URL válida")]),
  ("pattern", [
    ("en", "$\x7bdisplayName\x7d format is invalid"),
    ("ja", "$\x7bdisplayName\x7dの形式が正しくありません"),
    ("vi", "$\x7bdisplayName\x7d không đúng định dạng"),
    ("ko", "$\x7bdisplayName\x7d 형식이 올바르지 않습니다"),
    ("zh-CN", "$\x7bdisplayName\x7d格式不正确"),
    ("zh-TW", "$\x7bdisplayName\x7d格式不正確"),
    ("th", "รูปแบบ$\x7bdisplayName\x7dไม่ถูกต้อง"),
    ("es", "El formato de $\x7bdisplayName\x7d no es válido")])]

end SchemaTypes.Messages
